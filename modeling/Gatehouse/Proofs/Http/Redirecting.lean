import Gatehouse.Http.Plain
import Gatehouse.Proofs.Http.Dispatching

/-!
# Where redirects lead

A redirect puts the path and query of a request behind the authority that it leads to.  Read again,
the location is a URI of this authority with that path and query, as both begin with a character
that ends an authority.  The target `*` does not, and becomes a part of the authority: such a
redirect leads to another host.

    Request.LedTo            : a location leads to an authority
    ledTo_iff                : when the location of a redirect does
    IsRedirect               : all that is known of a redirect
    redirects_lead_to_host   : the redirects of routes, and those from plain HTTP
-/

namespace Gatehouse.Http

open Net Text

/-! ## Specification -/

/-- The location leads to an authority by HTTPS, with the path and query of the request. -/
def Request.LedTo (r : Request) (location authority : String) : Prop :=
  ∃ path, Target.ofText? location = some (.absolute "https" ⟨authority⟩ path) ∧
    path.text = r.redirectPath

/-- The location of a redirect to an authority. -/
def Request.locationAt (r : Request) (authority : String) : String :=
  "https://" ++ authority ++ r.redirectPath

/-- The redirect of a request to an authority. -/
structure IsRedirect (status : Nat) (authority : String) (r : Request) (response : Response) :
    Prop where
  located : response.status = status ∧
    response.headers.values "location" = [Octets.ofText (r.locationAt authority)]
  leads : r.LedTo (r.locationAt authority) authority ↔
    (Authority.ofText? authority).isSome = true ∧ r.target ≠ .asterisk ∧
      (r.locationAt authority).utf8ByteSize ≤ Target.maxLength
  /-- The asterisk leads to another authority. -/
  astray : (Authority.ofText? authority).isSome = true → r.target = .asterisk →
    (r.locationAt authority).utf8ByteSize ≤ Target.maxLength →
    Target.ofText? (r.locationAt authority) =
      some (.absolute "https" ⟨authority ++ "*"⟩ ⟨"", none⟩)

/-! ## What is read of a location -/

theorem endsAuthority_concat {cs : List Char}
    (hcs : ∀ c ∈ cs, Authority.endsAuthority c = false) :
    ∀ c ∈ cs ++ ['*'], Authority.endsAuthority c = false := by
  intro c hc
  rcases List.mem_append.mp hc with hc | hc
  · exact hcs c hc
  · obtain rfl : c = '*' := by simpa using hc
    rfl

/-- An asterisk behind an authority belongs to it. -/
theorem go_concat_asterisk {cs : List Char} (hcs : ∀ c ∈ cs, Authority.endsAuthority c = false)
    {s : Authority.Scan} {n m : Nat} (h : Authority.scan.go s n cs = some m) :
    Authority.scan.go s n (cs ++ ['*']) = some (m + 1) := by
  induction cs generalizing s n with
  | nil =>
    rw [Authority.scan.go] at h
    split at h
    · next hcomplete =>
      obtain rfl := Option.some.inj h
      have hstep : s.step '*' = some { s with sinceAt := s.sinceAt.map (· + 1) } := rfl
      have hkept : ({ s with sinceAt := s.sinceAt.map (· + 1) } : Authority.Scan).complete = true := by
        unfold Authority.Scan.complete at hcomplete ⊢
        cases hs : s.sinceAt <;> simp_all
      rw [List.nil_append, Authority.scan.go, if_neg (by decide), hstep]
      dsimp only
      rw [Authority.scan.go, if_pos hkept]
    · cases h
  | cons c cs ih =>
    have hc : ¬Authority.endsAuthority c = true :=
      Bool.eq_false_iff.mp (hcs c List.mem_cons_self)
    rw [Authority.scan.go, if_neg hc] at h
    rw [List.cons_append, Authority.scan.go, if_neg hc]
    cases hstep : s.step c with
    | none =>
      rw [hstep] at h
      cases h
    | some t =>
      rw [hstep] at h
      exact ih (fun d hd => hcs d (List.mem_cons_of_mem c hd)) h

theorem toList_locationAt (r : Request) (authority : String) :
    (r.locationAt authority).toList =
      "https".toList ++ "://".toList ++ (authority.toList ++ r.redirectPath.toList) := by
  rw [Request.locationAt, String.toList_append, String.toList_append, List.append_assoc]
  rfl

theorem le_of_ofText? {s : String} {t : Target} (h : Target.ofText? s = some t) :
    s.utf8ByteSize ≤ Target.maxLength := by
  unfold Target.ofText? at h
  split at h
  · cases h
  · next hsize => exact Nat.not_lt.mp hsize

theorem ofText?_locationAt_iff (r : Request) (authority other : String) (path : PathQuery) :
    Target.ofText? (r.locationAt authority) = some (.absolute "https" ⟨other⟩ path) ↔
      (r.locationAt authority).utf8ByteSize ≤ Target.maxLength ∧
        ∃ n, Authority.scan (authority.toList ++ r.redirectPath.toList) = some n ∧ n ≠ 0 ∧
          (authority.toList ++ r.redirectPath.toList).take n = other.toList ∧
          PathQuery.ofChars? ((authority.toList ++ r.redirectPath.toList).drop n) = some path := by
  have hlocation : r.locationAt authority = String.ofList
      ("https".toList ++ "://".toList ++ (authority.toList ++ r.redirectPath.toList)) := by
    rw [← toList_locationAt, String.ofList_toList]
  have hread := Target.ofText?_absolute "https".toList (by decide) (by decide) (by decide)
    (authority.toList ++ r.redirectPath.toList)
  rw [← hlocation] at hread
  generalize authority.toList ++ r.redirectPath.toList = cs at hread
  constructor
  · intro h
    have hsize := le_of_ofText? h
    rw [hread, if_neg (Nat.not_lt.mpr hsize), Option.bind_eq_some_iff] at h
    obtain ⟨n, hscan, h⟩ := h
    by_cases hn : n = 0
    · rw [if_pos hn] at h
      cases h
    · rw [if_neg hn, Option.map_eq_some_iff] at h
      obtain ⟨p, hpath, htarget⟩ := h
      cases htarget
      exact ⟨hsize, n, hscan, hn, String.toList_ofList.symm, hpath⟩
  · rintro ⟨hsize, n, hscan, hn, htake, hpath⟩
    rw [hread, if_neg (Nat.not_lt.mpr hsize), hscan, Option.bind_some, if_neg hn, hpath, htake,
      String.ofList_toList (s := other)]
    rfl

theorem redirectPath_of_asterisk {r : Request} (h : r.target = .asterisk) :
    r.redirectPath.toList = ['*'] := by
  rw [Request.redirectPath, h]
  rfl

/-- What a redirect keeps, but for the asterisk, may follow an authority and is read again. -/
theorem redirectPath_reread {uri : String} {r : Request} (huri : Target.ofText? uri = some r.target)
    (hne : r.target ≠ .asterisk) :
    Authority.EndsBefore r.redirectPath.toList ∧
      ∃ p, PathQuery.ofChars? r.redirectPath.toList = some p ∧ p.text = r.redirectPath := by
  obtain htarget | ⟨a, htarget⟩ | ⟨p, cs, hp, -, hread, hends⟩ := Target.cases_of_ofText? huri
  · exact absurd htarget hne
  · have hpath : r.redirectPath = "/" := by
      rw [Request.redirectPath, htarget]
      rfl
    rw [hpath]
    exact ⟨Authority.endsBefore_cons.mpr rfl, .root, rfl, rfl⟩
  · have hpath : r.redirectPath = p.text := by rw [Request.redirectPath, hp, Option.map_some,
      Option.getD_some]
    rw [hpath]
    exact ⟨PathQuery.endsBefore_text (PathQuery.isRooted_of_ofChars? hread hends),
      PathQuery.ofChars?_text (PathQuery.isProper_of_ofChars? hread)⟩

section

variable {uri : String} {r : Request} (huri : Target.ofText? uri = some r.target)
  {authority : String} (hchars : ∀ c ∈ authority.toList, Authority.endsAuthority c = false)

include huri hchars

/-- **Where a redirect leads.**  Its location leads to what is an authority, unless the target is
the asterisk or the location is too long. -/
theorem ledTo_iff :
    r.LedTo (r.locationAt authority) authority ↔
      (Authority.ofText? authority).isSome = true ∧ r.target ≠ .asterisk ∧
        (r.locationAt authority).utf8ByteSize ≤ Target.maxLength := by
  rw [Authority.isSome_ofText?_iff]
  unfold Request.LedTo
  simp only [ofText?_locationAt_iff]
  constructor
  · rintro ⟨path, ⟨hsize, n, hscan, hn, htake, -⟩, -⟩
    by_cases htarget : r.target = .asterisk
    · -- Nothing ends the authority here, so it is not the one that was written.
      rw [redirectPath_of_asterisk htarget] at hscan htake
      obtain rfl := Authority.eq_length_of_scan (endsAuthority_concat hchars) hscan
      rw [List.take_length] at htake
      exact absurd (congrArg List.length htake) (by simp)
    · have hends := (redirectPath_reread huri htarget).1
      rw [Authority.scan_append hchars hends] at hscan
      obtain rfl := Authority.eq_length_of_scan hchars hscan
      have hne : authority ≠ "" := by
        rintro rfl
        exact hn rfl
      exact ⟨⟨hne, hscan⟩, htarget, hsize⟩
  · rintro ⟨⟨hne, hscan⟩, htarget, hsize⟩
    obtain ⟨hends, path, hpath, htext⟩ := redirectPath_reread huri htarget
    refine ⟨path, ⟨hsize, _, (Authority.scan_append hchars hends).trans hscan, ?_, ?_, ?_⟩, htext⟩
    · simpa using hne
    · exact List.take_left
    · rwa [List.drop_left]

end

theorem ofText?_of_asterisk {r : Request} {authority : String}
    (hvalid : (Authority.ofText? authority).isSome = true) (htarget : r.target = .asterisk)
    (hsize : (r.locationAt authority).utf8ByteSize ≤ Target.maxLength) :
    Target.ofText? (r.locationAt authority) =
      some (.absolute "https" ⟨authority ++ "*"⟩ ⟨"", none⟩) := by
  obtain ⟨a, ha⟩ := Option.isSome_iff_exists.mp hvalid
  have hchars := fun c hc => Authority.endsAuthority_of_isAllowed ((Authority.ofText?_eq_some ha).2 c hc)
  obtain ⟨-, hscan⟩ := (Authority.isSome_ofText?_iff authority).mp hvalid
  have hlonger := go_concat_asterisk hchars hscan
  rw [ofText?_locationAt_iff, redirectPath_of_asterisk htarget]
  refine ⟨hsize, _, hlonger, Nat.succ_ne_zero _, ?_, ?_⟩
  · rw [String.toList_append]
    exact List.take_of_length_le (by simp)
  · rw [List.drop_of_length_le (by simp)]
    rfl

/-! ## What is answered -/

theorem endsAuthority_of_mem_host {r : Request} {host : String} (h : r.host = .ok host) :
    ∀ c ∈ host.toList, Authority.endsAuthority c = false := by
  obtain ⟨text, authority, -, ha, rfl, -⟩ := Request.host_eq_ok h
  obtain ⟨rfl, hallowed⟩ := Authority.ofText?_eq_some ha
  intro c hc
  rw [Host.toList_canonical, Host.canonicalChars] at hc
  obtain ⟨d, hd, rfl⟩ := List.mem_map.mp hc
  have hmem : d ∈ authority.text.toList := by
    have hd := mem_of_mem_dropEndWhile hd
    rw [Authority.host, String.toList_ofList] at hd
    exact Authority.mem_of_mem_hostChars hd
  have hcase : Authority.endsAuthority d.toLower = Authority.endsAuthority d := by
    unfold Authority.endsAuthority
    rw [toLower_beq (by decide) (fun h => absurd h.1 (by decide)),
      toLower_beq (by decide) (fun h => absurd h.1 (by decide)),
      toLower_beq (by decide) (fun h => absurd h.1 (by decide))]
  rw [hcase]
  exact Authority.endsAuthority_of_isAllowed (hallowed d hmem)

theorem isRedirect_redirect {uri : String} {r : Request} (huri : Target.ofText? uri = some r.target)
    {authority : String} (hfield : (Octets.ofText authority).all isFieldOctet = true)
    (hchars : ∀ c ∈ authority.toList, Authority.endsAuthority c = false) (status : Nat) :
    IsRedirect status authority r (.redirect status (r.locationAt authority)) := by
  have hredirect := redirect_of_target huri hfield status
  refine ⟨?_, ledTo_iff huri hchars, ofText?_of_asterisk⟩
  rw [Request.locationAt, hredirect]
  exact ⟨rfl, rfl⟩

/-- **Redirects lead to the host that they are for**: those of routes to the destination of the
route, and those from plain HTTP to the host of the request.  The asterisk leads astray, and so does
the host of a request that is no authority by itself. -/
theorem redirects_lead_to_host {uri : String} {r : Request}
    (huri : Target.ofText? uri = some r.target) (client : Client) (peer : SocketAddress) :
    (∀ table host destination nonempty,
      dispatch table r = .ok (host, .redirect destination nonempty) →
      (Authority.ofText? destination).isSome = true →
      IsRedirect 307 destination r (serveHttps table client peer r).response) ∧
    ∀ localProxy host, r.host = .ok host → Host.isLocal host = false →
      IsRedirect 308 host r (servePlain localProxy client peer r).response := by
  constructor
  · intro table host destination nonempty hdispatch hvalid
    obtain ⟨a, ha⟩ := Option.isSome_iff_exists.mp hvalid
    have hallowed := (Authority.ofText?_eq_some ha).2
    have hserve : (serveHttps table client peer r).response =
        .redirect 307 (r.locationAt destination) := by
      rw [serveHttps, hdispatch]
      rfl
    rw [hserve]
    exact isRedirect_redirect huri
      (all_isFieldOctet_ofText fun c hc => Authority.isGraphic_of_isAllowed c (hallowed c hc))
      (fun c hc => Authority.endsAuthority_of_isAllowed (hallowed c hc)) 307
  · intro localProxy host hhost hlocal
    have hserve : (servePlain localProxy client peer r).response =
        .redirect 308 (r.locationAt host) := by
      rw [servePlain, hhost]
      dsimp only
      rw [hlocal]
      rfl
    rw [hserve]
    exact isRedirect_redirect huri (Request.isFieldOctet_of_host hhost)
      (endsAuthority_of_mem_host hhost) 308

def redirectTable : RouteTable :=
  ⟨⟨[("c.example", .redirect "d.example:8443" (by decide))]⟩, 0⟩

def serverRequest (host : String) : Request :=
  { method := "OPTIONS", target := .asterisk, headers := [⟨"host", Octets.ofText host⟩] }

theorem redirectTable_leads :
    (requestFor "C.example.:1" "/x").LedTo "https://d.example:8443/x" "d.example:8443" ∧
      (requestFor "C.example.:1" "/x").LedTo "https://c.example/x" "c.example" ∧
      Target.ofText? "https://d.example:8443*" =
        some (.absolute "https" ⟨"d.example:8443*"⟩ ⟨"", none⟩) := by
  have hpath : Target.ofText? "/x" = some (requestFor "C.example.:1" "/x").target := by
    decide +kernel
  have hserver : Target.ofText? "*" = some (serverRequest "c.example").target := by decide +kernel
  obtain ⟨hroute, hplain⟩ := redirects_lead_to_host hpath noBackend someone
  obtain ⟨hasterisk, -⟩ := redirects_lead_to_host hserver noBackend someone
  have hdestination : (Authority.ofText? "d.example:8443").isSome = true := by decide +kernel
  refine ⟨?_, ?_, ?_⟩
  · exact (hroute redirectTable "c.example" "d.example:8443" (by decide) rfl
      hdestination).leads.mpr ⟨hdestination, nofun, by decide +kernel⟩
  · exact (hplain none "c.example" rfl (by decide +kernel)).leads.mpr
      ⟨by decide +kernel, nofun, by decide +kernel⟩
  · exact (hasterisk redirectTable "c.example" "d.example:8443" (by decide) rfl
      hdestination).astray hdestination rfl (by decide +kernel)

/-- An asterisk leads to another host than that of the route, and from plain HTTP to another than
that of the request; a bracket from before a port leads nowhere. -/
theorem asterisk_leads_elsewhere :
    (serveHttps redirectTable noBackend someone (serverRequest "c.example")).response.headers.values
        "location" = [Octets.ofText "https://d.example:8443*"] ∧
      ¬(serverRequest "c.example").LedTo "https://d.example:8443*" "d.example:8443" ∧
    (servePlain none noBackend someone (serverRequest "c.example")).response.headers.values
        "location" = [Octets.ofText "https://c.example*"] ∧
      ¬(serverRequest "c.example").LedTo "https://c.example*" "c.example" ∧
    (servePlain none noBackend someone (requestFor "c[:1]" "/x")).response.headers.values
        "location" = [Octets.ofText "https://c[/x"] ∧
      ¬(requestFor "c[:1]" "/x").LedTo "https://c[/x" "c[" := by
  have hroute : Target.ofText? "https://d.example:8443*" =
      some (.absolute "https" ⟨"d.example:8443*"⟩ ⟨"", none⟩) := by decide +kernel
  have hplain : Target.ofText? "https://c.example*" =
      some (.absolute "https" ⟨"c.example*"⟩ ⟨"", none⟩) := by decide +kernel
  have hbracket : Target.ofText? "https://c[/x" = none := by decide +kernel
  refine ⟨by decide +kernel, ?_, by decide +kernel, ?_, by decide +kernel, ?_⟩
  · rintro ⟨path, hread, -⟩
    rw [hroute] at hread
    exact absurd hread (by simp)
  · rintro ⟨path, hread, -⟩
    rw [hplain] at hread
    exact absurd hread (by simp)
  · rintro ⟨path, hread, -⟩
    rw [hbracket] at hread
    cases hread

end Gatehouse.Http
