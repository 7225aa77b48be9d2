import Gatehouse.Http.VirtualHosts
import Gatehouse.Proofs.Net.Rereading
import Gatehouse.Proofs.Net.Spelling
import Gatehouse.Proofs.Route.Parsing

/-!
# How requests are dispatched

A request is answered by the last entry for its host: by the administrative pages, by a redirect or
by a backend.  The two sides agree on hosts, as both bring them into the same form, in which
neither case nor points at the end count; nor do port and user information in a `Host` header.

A redirect keeps path and query.  All that may stand in these may stand in a header too, so that
there is a redirect whenever the host that it leads to can stand there.

    all_ofText               : which texts can stand in a field
    redirect_of_target       : a redirect to a host that can
    Answers                  : what the answer to a request is, by the entries of the table
    Request.SpellsHost       : a valid `Host` header for a host, and what stands around the host
    dispatch_follows_entries : requests are dispatched so
-/

namespace Gatehouse.Http

open Net Text

/-! ## What can stand in a field -/

/-- Whether the octets of a character may stand in a field value. -/
def isFieldChar (c : Char) : Bool := (0x20 ≤ c.toNat && c.toNat != 0x7f) || c.toNat == 9

theorem isFieldChar_iff (c : Char) :
    isFieldChar c = true ↔ (0x20 ≤ c.toNat ∧ c.toNat ≠ 0x7f) ∨ c.toNat = 9 := by
  simp [isFieldChar]

theorem isFieldOctet_iff (b : UInt8) :
    isFieldOctet b = true ↔ (0x20 ≤ b.toNat ∧ b.toNat ≠ 0x7f) ∨ b.toNat = 9 := by
  simp [isFieldOctet, UInt8.le_iff_toNat_le, ← UInt8.toNat_inj]

/-- The octets of a character beyond ASCII are beyond ASCII. -/
theorem le_of_mem_utf8 {c : Char} (h : 0x80 ≤ c.toNat) {b : UInt8}
    (hb : b ∈ String.utf8EncodeChar c) : 0x80 ≤ b.toNat := by
  have hoctet (n m : Nat) (hlow : 0x80 ≤ m) (hsum : n + m < 256) :
      0x80 ≤ (UInt8.ofNat (n + m)).toNat := by
    rw [UInt8.toNat_ofNat_of_lt' hsum]
    omega
  have hhigh : ¬c.val.toNat ≤ 0x7f := Nat.not_le.mpr h
  unfold String.utf8EncodeChar at hb
  dsimp only at hb
  rw [if_neg hhigh] at hb
  split at hb
  · simp only [List.mem_cons, List.not_mem_nil, or_false] at hb
    rcases hb with rfl | rfl <;> exact hoctet _ _ (by omega) (by omega)
  · split at hb
    · simp only [List.mem_cons, List.not_mem_nil, or_false] at hb
      rcases hb with rfl | rfl | rfl <;> exact hoctet _ _ (by omega) (by omega)
    · simp only [List.mem_cons, List.not_mem_nil, or_false] at hb
      rcases hb with rfl | rfl | rfl | rfl <;> exact hoctet _ _ (by omega) (by omega)

theorem all_utf8 (c : Char) : (String.utf8EncodeChar c).all isFieldOctet = isFieldChar c := by
  rw [Bool.eq_iff_iff, isFieldChar_iff, List.all_eq_true]
  by_cases h : c.toNat ≤ 0x7f
  · have hsingle : String.utf8EncodeChar c = [UInt8.ofNat c.toNat] := if_pos h
    have hoctet : (UInt8.ofNat c.toNat).toNat = c.toNat :=
      UInt8.toNat_ofNat_of_lt' (Nat.lt_of_le_of_lt h (by decide))
    simp [hsingle, isFieldOctet_iff, hoctet]
  · refine iff_of_true (fun b hb => ?_) (by omega)
    have hhigh := le_of_mem_utf8 (Nat.lt_of_not_le h) hb
    rw [isFieldOctet_iff]
    omega

/-- Which texts can stand in a field. -/
theorem all_ofText (s : String) :
    (Octets.ofText s).all isFieldOctet = s.toList.all isFieldChar := by
  rw [← String.ofList_toList (s := s), Octets.ofText_ofList, String.toList_ofList, List.all_flatMap]
  exact congrArg _ (funext all_utf8)

/-! ## Paths of redirects -/

theorem isFieldChar_of_isPathChar {c : Char} (h : PathQuery.isPathChar c = true) :
    isFieldChar c = true := by
  simp only [PathQuery.isPathChar, Bool.or_eq_true, beq_iff_eq, Bool.and_eq_true,
    decide_eq_true_eq] at h
  rw [isFieldChar_iff]
  omega

theorem isFieldChar_of_isQueryChar {c : Char} (h : PathQuery.isQueryChar c = true) :
    isFieldChar c = true := by
  simp only [PathQuery.isQueryChar, Bool.or_eq_true, beq_iff_eq, Bool.and_eq_true,
    decide_eq_true_eq] at h
  rw [isFieldChar_iff]
  omega

/-- What is written for a path and a query can stand in a field. -/
theorem isFieldChar_of_mem_text {p : PathQuery} (h : p.IsProper) {c : Char}
    (hc : c ∈ p.text.toList) : isFieldChar c = true := by
  by_cases hempty : p.path ≠ "" ∨ p.query ≠ none
  · rw [PathQuery.toList_text hempty, List.mem_append] at hc
    rcases hc with hc | hc
    · exact isFieldChar_of_isPathChar (h.path c hc)
    · cases hq : p.query with
      | none => simp [hq] at hc
      | some query =>
        rw [hq, Option.map_some, Option.getD_some, List.mem_cons] at hc
        rcases hc with rfl | hc
        · decide
        · exact isFieldChar_of_isQueryChar (h.query query hq c hc)
  · rw [not_or, not_not, not_not] at hempty
    rw [PathQuery.text_of_empty hempty.1 hempty.2] at hc
    obtain rfl : c = '/' := by simpa using hc
    decide

/-- So can what a redirect keeps. -/
theorem isFieldChar_of_mem_redirectPath {uri : String} {r : Request}
    (h : Target.ofText? uri = some r.target) {c : Char} (hc : c ∈ r.redirectPath.toList) :
    isFieldChar c = true := by
  unfold Request.redirectPath at hc
  obtain htarget | ⟨a, htarget⟩ | ⟨p, cs, hp, -, hread, -⟩ := Target.cases_of_ofText? h
  · rw [htarget] at hc
    obtain rfl : c = '*' := by simpa [Target.pathQuery?, PathQuery.text] using hc
    decide
  · rw [htarget] at hc
    obtain rfl : c = '/' := by simpa [Target.pathQuery?] using hc
    decide
  · rw [hp] at hc
    exact isFieldChar_of_mem_text (PathQuery.isProper_of_ofChars? hread) hc

/-- A redirect to a host that can stand in a field is one. -/
theorem redirect_of_target {uri destination : String} {r : Request}
    (huri : Target.ofText? uri = some r.target)
    (hdestination : (Octets.ofText destination).all isFieldOctet = true) (status : Nat) :
    Response.redirect status ("https://" ++ destination ++ r.redirectPath) =
      { status := status
        headers :=
          [⟨"location", Octets.ofText ("https://" ++ destination ++ r.redirectPath)⟩] } := by
  have hscheme : "https://".toList.all isFieldChar = true := by decide
  have hpath : r.redirectPath.toList.all isFieldChar = true :=
    List.all_eq_true.mpr fun c hc => isFieldChar_of_mem_redirectPath huri hc
  rw [all_ofText] at hdestination
  have hlocation : (Octets.ofText ("https://" ++ destination ++ r.redirectPath)).all isFieldOctet =
      true := by
    rw [all_ofText, String.toList_append, String.toList_append, List.all_append, List.all_append,
      hscheme, hdestination, hpath]
    rfl
  exact if_pos hlocation

/-! ## Answers -/

/-- A host is refused as a bad request. -/
theorem status_of_host {r : Request} {e : Refusal} (h : r.host = .error e) : e.status = 400 := by
  unfold Request.host at h
  split at h
  · next e' htext =>
    obtain rfl := Except.error.inj h
    unfold Request.hostText at htext
    split at htext
    · split at htext <;> cases htext
      rfl
    · split at htext <;> cases htext
      rfl
  · split at h
    · cases h
      rfl
    · dsimp only at h
      split at h <;> cases h
      rfl

/-- The request is for a host whose last entry names a backend. -/
def ForBackend (entries : List (String × String)) (r : Request) : Prop :=
  ∃ host target, r.host = .ok host ∧ Routes.lastTarget? entries host = some target ∧
    Route.NamesBackend target

/-- What the answer to a request is, by the entries of the table. -/
structure Answers (entries : List (String × String)) (client : Client) (peer : SocketAddress)
    (r : Request) (reply : Reply) : Prop where
  refused : ∀ e, r.host = .error e → reply = { response := .ofStatus 400 }
  unknown : ∀ host, r.host = .ok host → Routes.lastTarget? entries host = none →
    reply = { response := .ofStatus 404 }
  home : ∀ host target, r.host = .ok host → Routes.lastTarget? entries host = some target →
    trim target = Route.homeTarget → reply = { response := Admin.respond r }
  /-- A redirect to a host that can stand in a field, for a request with a proper target. -/
  redirect : ∀ host target destination uri, r.host = .ok host →
    Routes.lastTarget? entries host = some target → Route.RedirectsTo target destination →
    (Octets.ofText destination).all isFieldOctet = true → Target.ofText? uri = some r.target →
    reply.outbound = none ∧ reply.response =
      { status := 307
        headers := [⟨"location", Octets.ofText ("https://" ++ destination ++ r.redirectPath)⟩] }
  /-- The response of the backend, or an error in its place. -/
  backend : ∀ host target, r.host = .ok host → Routes.lastTarget? entries host = some target →
    Route.NamesBackend target →
    let outbound := r.toOutbound (trim target) ⟨peer, host, .https⟩
    let response := (client outbound).getD (.ofStatus 502)
    reply.outbound = some outbound ∧
      reply.response =
        { response with
          headers := response.headers.set strictTransport.name strictTransport.value }
  strict : ForBackend entries r →
    reply.response.headers.values strictTransport.name = [strictTransport.value]
  others : ¬ForBackend entries r → reply.response.headers.values strictTransport.name = []

/-- The administrative pages do not tell a client to stay with HTTPS. -/
theorem values_admin (r : Request) :
    (Admin.respond r).headers.values strictTransport.name = [] := by
  unfold Admin.respond
  dsimp only
  split
  · split <;> simp [Headers.values, strictTransport, Admin.lengthField]
  · split <;> simp [Headers.values, strictTransport, Admin.lengthField, Response.ofStatus]

theorem values_redirect (status : Nat) (location : String) :
    (Response.redirect status location).headers.values strictTransport.name = [] := by
  unfold Response.redirect
  dsimp only
  split <;> simp [Headers.values, strictTransport, plainText]

theorem values_withStrictTransport (reply : Reply) :
    reply.withStrictTransport.response.headers.values strictTransport.name =
      [strictTransport.value] := by
  rw [Reply.withStrictTransport, Headers.values_set, if_pos rfl]

section

variable {entries : List (String × String)} {rs : Routes} {version : Nat} {r : Request}
  {host : String}

/-- Nothing but the last entry for a host counts, on either side in the same form. -/
theorem get?_of_host (version : Nat) (h : Routes.parse entries = .ok rs)
    (hhost : r.host = .ok host) :
    match Routes.lastTarget? entries host with
    | none => (⟨rs, version⟩ : RouteTable).get? host = none
    | some target => ∃ route, Route.parse host target = .ok route ∧
        (⟨rs, version⟩ : RouteTable).get? host = some route := by
  obtain ⟨text, authority, -, -, rfl, -⟩ := Request.host_eq_ok hhost
  unfold RouteTable.get?
  rw [Host.canonical_canonical]
  exact Routes.get?_of_parse h _

/-- What comes of forwarding. -/
theorem withStrictTransport_forwardReply (client : Client) (r : Request) (destination : String)
    (o : Origin) :
    let outbound := r.toOutbound destination o
    let response := (client outbound).getD (.ofStatus 502)
    (forwardReply client r destination o).withStrictTransport.outbound = some outbound ∧
      (forwardReply client r destination o).withStrictTransport.response =
        { response with
          headers := response.headers.set strictTransport.name strictTransport.value } := by
  intro outbound response
  unfold forwardReply forward
  cases hsent : client outbound with
  | none =>
    have hresponse : response = .ofStatus 502 := by simp [response, hsent]
    rw [hresponse]
    exact ⟨rfl, rfl⟩
  | some answer =>
    have hresponse : response = answer := by simp [response, hsent]
    rw [hresponse]
    exact ⟨rfl, rfl⟩

variable (client : Client) (peer : SocketAddress)

theorem serveHttps_of_refused {e : Refusal} (he : r.host = .error e) :
    serveHttps ⟨rs, version⟩ client peer r = { response := .ofStatus 400 } := by
  rw [serveHttps, dispatch, he, ← status_of_host he]
  rfl

section

variable (h : Routes.parse entries = .ok rs) (hhost : r.host = .ok host)

include h hhost

theorem serveHttps_of_unknown (hlast : Routes.lastTarget? entries host = none) :
    serveHttps ⟨rs, version⟩ client peer r = { response := .ofStatus 404 } := by
  have hget := get?_of_host version h hhost
  rw [hlast] at hget
  rw [serveHttps, dispatch, hhost]
  dsimp only at hget ⊢
  rw [hget]
  rfl

variable {target : String} (hlast : Routes.lastTarget? entries host = some target)

include hlast

/-- The route of a target is followed. -/
theorem serveHttps_of_target :
    ∃ route, Route.parse host target = .ok route ∧
      serveHttps ⟨rs, version⟩ client peer r = serveRoute client peer host r route := by
  have hroute := get?_of_host version h hhost
  rw [hlast] at hroute
  obtain ⟨route, hparse, hget⟩ := hroute
  refine ⟨route, hparse, ?_⟩
  rw [serveHttps, dispatch_eq_ok.mpr ⟨hhost, hget⟩]

theorem serveHttps_of_home (htarget : trim target = Route.homeTarget) :
    serveHttps ⟨rs, version⟩ client peer r = { response := Admin.respond r } := by
  obtain ⟨route, hparse, hserve⟩ := serveHttps_of_target client peer h hhost hlast
  obtain rfl := Route.eq_home_of_parse hparse htarget
  exact hserve

theorem serveHttps_of_redirect {destination : String} (hto : Route.RedirectsTo target destination) :
    serveHttps ⟨rs, version⟩ client peer r =
      { response := .redirect 307 ("https://" ++ destination ++ r.redirectPath) } := by
  obtain ⟨route, hparse, hserve⟩ := serveHttps_of_target client peer h hhost hlast
  obtain ⟨nonempty, rfl⟩ := Route.eq_redirect_of_parse hparse hto
  exact hserve

theorem serveHttps_of_backend (htarget : Route.NamesBackend target) :
    serveHttps ⟨rs, version⟩ client peer r =
      (forwardReply client r (trim target) ⟨peer, host, .https⟩).withStrictTransport := by
  obtain ⟨route, hparse, hserve⟩ := serveHttps_of_target client peer h hhost hlast
  obtain ⟨nonempty, rfl⟩ := Route.eq_proxy_of_parse hparse htarget
  exact hserve

end

/-- Without a backend nothing tells the client to stay with HTTPS. -/
theorem values_of_not_forBackend (h : Routes.parse entries = .ok rs)
    (hnot : ¬ForBackend entries r) :
    (serveHttps ⟨rs, version⟩ client peer r).response.headers.values strictTransport.name = [] := by
  cases hhost : r.host with
  | error e =>
    rw [serveHttps_of_refused client peer hhost]
    rfl
  | ok host =>
    cases hlast : Routes.lastTarget? entries host with
    | none =>
      rw [serveHttps_of_unknown client peer h hhost hlast]
      rfl
    | some target =>
      obtain htarget | ⟨destination, hto⟩ | htarget := Route.kinds target
      · rw [serveHttps_of_home client peer h hhost hlast htarget]
        exact values_admin r
      · rw [serveHttps_of_redirect client peer h hhost hlast hto]
        exact values_redirect _ _
      · exact absurd ⟨host, target, hhost, hlast, htarget⟩ hnot

theorem answers_serveHttps (h : Routes.parse entries = .ok rs) (r : Request) :
    Answers entries client peer r (serveHttps ⟨rs, version⟩ client peer r) where
  refused e he := serveHttps_of_refused client peer he
  unknown host hhost hlast := serveHttps_of_unknown client peer h hhost hlast
  home host target hhost hlast htarget :=
    serveHttps_of_home client peer h hhost hlast htarget
  redirect := by
    intro host target destination uri hhost hlast hto hdestination huri
    rw [serveHttps_of_redirect client peer h hhost hlast hto]
    exact ⟨rfl, redirect_of_target huri hdestination 307⟩
  backend := by
    intro host target hhost hlast htarget
    rw [serveHttps_of_backend client peer h hhost hlast htarget]
    exact withStrictTransport_forwardReply client r (trim target) ⟨peer, host, .https⟩
  strict := by
    rintro ⟨host, target, hhost, hlast, htarget⟩
    rw [serveHttps_of_backend client peer h hhost hlast htarget]
    exact values_withStrictTransport _
  others := values_of_not_forBackend client peer h

end

/-! ## The same host in other spellings -/

/-- The request has a valid `Host` header for a host, with something around it. -/
def Request.SpellsHost (r : Request) (host : List Char) : Prop :=
  Authority.IsHost host ∧ ∃ around : Authority.Around, around.HasPort ∧
    (∃ value, r.headers.first? "host" = some value ∧
      visibleText? value = some (String.ofList (around.write host))) ∧
    (Authority.ofText? (String.ofList (around.write host))).isSome = true

/-- Only the canonical form of the host counts. -/
theorem Request.SpellsHost.host_eq {r : Request} {host : List Char} (h : r.SpellsHost host) :
    r.host =
      let canonical := String.ofList (Host.canonicalChars host)
      if canonical.isEmpty then .error .invalidHost else .ok canonical := by
  obtain ⟨hhost, around, hport, ⟨value, hvalue, htext⟩, hvalid⟩ := h
  obtain ⟨authority, hauthority⟩ := Option.isSome_iff_exists.mp hvalid
  have hcanonical : Host.canonical authority.host = String.ofList (Host.canonicalChars host) := by
    rw [Host.canonical, Authority.host, (Authority.ofText?_eq_some hauthority).1,
      String.toList_ofList, String.toList_ofList, Authority.canonical_hostChars hport hhost]
  have hnamed : r.hostText = .ok (String.ofList (around.write host)) := by
    rw [Request.hostText, hvalue]
    dsimp only
    rw [htext]
  rw [Request.host, hnamed]
  dsimp only
  rw [hauthority]
  dsimp only
  rw [hcanonical]

/-- Hosts that differ in case are the same host. -/
theorem Request.SpellsHost.same {r r' : Request} {host host' : List Char} (h : r.SpellsHost host)
    (h' : r'.SpellsHost host') (hcase : host.map Char.toLower = host'.map Char.toLower) :
    r.host = r'.host := by
  rw [h.host_eq, h'.host_eq, Host.canonicalChars_eq host, Host.canonicalChars_eq host', hcase]

/-! ## All together -/

/-- **Requests are dispatched by the entries of the table.**  The last entry for the host of a
request, both in canonical form, says how it is answered; a backend's answer tells the client to
stay with HTTPS, once, and no other does.  Requests whose `Host` headers differ in case, points at
the end, port or user information are dispatched in the same way. -/
theorem dispatch_follows_entries {entries : List (String × String)} {rs : Routes}
    (h : Routes.parse entries = .ok rs) (version : Nat) (client : Client) (peer : SocketAddress) :
    (∀ r, Answers entries client peer r (serveHttps ⟨rs, version⟩ client peer r)) ∧
    ∀ r r' host host', r.SpellsHost host → r'.SpellsHost host' →
      host.map Char.toLower = host'.map Char.toLower →
      r.host = r'.host ∧ dispatch ⟨rs, version⟩ r = dispatch ⟨rs, version⟩ r' := by
  refine ⟨answers_serveHttps client peer h, ?_⟩
  intro r r' host host' hspells hspells' hcase
  have hsame := hspells.same hspells' hcase
  exact ⟨hsame, by rw [dispatch, dispatch, hsame]⟩

/-- Entries for two hosts, of which the second is given twice. -/
def threeEntries : List (String × String) :=
  [("b.example", "127.0.0.1:3000"), ("c.example", "home"), (" C.Example. ", "!d.example")]

def requestFor (host path : String) : Request :=
  { target := .origin ⟨path, none⟩, headers := [⟨"host", Octets.ofText host⟩] }

/-- The client from whom the requests come. -/
def someone : SocketAddress := { ip := .v4 .loopback, port := 50000 }

def noBackend : Client := fun _ => none

theorem spellsHost_requestFor {host : String} {name : List Char} (around : Authority.Around)
    {path : String} (hname : Authority.IsHost name) (hport : around.HasPort)
    (htext : visibleText? (Octets.ofText host) = some (String.ofList (around.write name)))
    (hvalid : (Authority.ofText? (String.ofList (around.write name))).isSome = true) :
    (requestFor host path).SpellsHost name :=
  ⟨hname, around, hport, ⟨_, rfl, htext⟩, hvalid⟩

theorem dispatch_follows_threeEntries : ∃ rs, Routes.parse threeEntries = .ok rs ∧
    (serveHttps ⟨rs, 0⟩ noBackend someone (requestFor "user@c.EXAMPLE:8443" "/x")).response =
      { status := 307, headers := [⟨"location", Octets.ofText "https://d.example/x"⟩] } ∧
    dispatch ⟨rs, 0⟩ (requestFor "user@c.EXAMPLE:8443" "/x") =
      dispatch ⟨rs, 0⟩ (requestFor "C.Example.." "/x") := by
  obtain ⟨rs, hrs⟩ : ∃ rs, Routes.parse threeEntries = .ok rs := by
    have hparse : (Routes.parse threeEntries).toOption.isSome = true := by decide +kernel
    cases hrs : Routes.parse threeEntries with
    | error e => rw [hrs] at hparse; cases hparse
    | ok rs => exact ⟨rs, rfl⟩
  obtain ⟨hanswers, hsame⟩ := dispatch_follows_entries hrs 0 noBackend someone
  have hspells : (requestFor "user@c.EXAMPLE:8443" "/x").SpellsHost "c.EXAMPLE".toList :=
    spellsHost_requestFor ⟨some "user".toList, 0, some "8443".toList⟩
      ⟨by decide, .inl ⟨by decide, by decide⟩⟩ (by rintro _ ⟨⟩; decide) (by decide +kernel)
      (by decide +kernel)
  have hspells' : (requestFor "C.Example.." "/x").SpellsHost "C.Example".toList :=
    spellsHost_requestFor ⟨none, 2, none⟩ ⟨by decide, .inl ⟨by decide, by decide⟩⟩ nofun
      (by decide +kernel) (by decide +kernel)
  have hhost : (requestFor "user@c.EXAMPLE:8443" "/x").host = .ok "c.example" := by
    rw [hspells.host_eq]
    rfl
  have hlocation := (hanswers (requestFor "user@c.EXAMPLE:8443" "/x")).redirect "c.example"
    "!d.example" "d.example" "/x" hhost (by decide +kernel) ⟨"d.example".toList, by decide +kernel,
    by decide +kernel⟩ (by decide +kernel) (by decide +kernel)
  refine ⟨rs, hrs, ?_, (hsame _ _ _ _ hspells hspells' (by decide)).2⟩
  exact hlocation.2

end Gatehouse.Http
