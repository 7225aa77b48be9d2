import Gatehouse.Http.VirtualHosts
import Gatehouse.Proofs.Route.Writing

/-!
# Kinds of routes and their destinations

A route is a kind with a destination, or without one; only the administrative pages go without, and
a destination is never empty.  So whoever writes a route down or answers for it never has to fall
back to something else when there is no destination.  A route that was read is read again from its
written form; one that was made of a destination is, unless the destination has blanks around it or
would be taken for another kind.

    RouteKind.Fits                  : the destinations that a kind goes with
    Route.exists_iff_fits           : a route is a kind with such a destination
    RouteKind.write, RouteKind.serve : a kind with any destination, and something to fall back to
    Route.parse_text_proxy_iff, parse_text_redirect_iff : what is read from the written form
    Route.kinds_keep_destinations   : all of this together
-/

namespace Gatehouse

open Text

inductive RouteKind where
  | home
  | proxy
  | redirect
deriving DecidableEq, Repr

namespace RouteKind

/-- The destinations that a kind goes with: none for the administrative pages, and for the others
one that is not empty. -/
def Fits : RouteKind → Option String → Prop
  | home, destination? => destination? = none
  | _, destination? => ∃ destination, destination? = some destination ∧ destination ≠ ""

/-- The written form of a kind with a destination, or with a fallback where there is none. -/
def write (fallback : String) : RouteKind → Option String → String
  | home, _ => Route.homeTarget
  | redirect, some destination => String.ofList (Route.redirectMark :: destination.toList)
  | _, destination? => destination?.getD fallback

/-- The answer that a kind with a destination gives, when requests go to a fallback where there is
none. -/
def serve (fallback : String) (client : Http.Client) (peer : Net.SocketAddress) (host : String)
    (r : Http.Request) : RouteKind → Option String → Http.Reply
  | home, _ => { response := Http.Admin.respond r }
  | redirect, some destination =>
    { response := .redirect 307 ("https://" ++ destination ++ r.redirectPath) }
  | _, destination? =>
    (Http.forwardReply client r (destination?.getD fallback)
      ⟨peer, host, .https⟩).withStrictTransport

end RouteKind

namespace Route

def kind : Route → RouteKind
  | home => .home
  | proxy _ _ => .proxy
  | redirect _ _ => .redirect

/-! ## What routes are made of -/

theorem fits (route : Route) : route.kind.Fits route.destination? := by
  cases route with
  | home => rfl
  | proxy destination nonempty => exact ⟨destination, rfl, nonempty⟩
  | redirect destination nonempty => exact ⟨destination, rfl, nonempty⟩

/-- A route is a kind with a destination that it goes with. -/
theorem exists_iff_fits (kind : RouteKind) (destination? : Option String) :
    (∃ route : Route, route.kind = kind ∧ route.destination? = destination?) ↔
      kind.Fits destination? := by
  constructor
  · rintro ⟨route, rfl, rfl⟩
    exact route.fits
  · intro h
    cases kind with
    | home => exact ⟨home, rfl, h.symm⟩
    | proxy =>
      obtain ⟨destination, rfl, nonempty⟩ := h
      exact ⟨proxy destination nonempty, rfl, rfl⟩
    | redirect =>
      obtain ⟨destination, rfl, nonempty⟩ := h
      exact ⟨redirect destination nonempty, rfl, rfl⟩

theorem proxy?_eq_some_iff {destination : String} {route : Route} :
    proxy? destination = some route ↔
      route.kind = .proxy ∧ route.destination? = some destination := by
  constructor
  · intro h
    obtain ⟨nonempty, h⟩ := Option.dite_none_right_eq_some.mp h
    cases h
    exact ⟨rfl, rfl⟩
  · rintro ⟨hkind, hdestination⟩
    cases route with
    | proxy own nonempty =>
      obtain rfl := Option.some.inj hdestination
      exact dif_pos nonempty
    | _ => cases hkind

theorem redirect?_eq_some_iff {destination : String} {route : Route} :
    redirect? destination = some route ↔
      route.kind = .redirect ∧ route.destination? = some destination := by
  constructor
  · intro h
    obtain ⟨nonempty, h⟩ := Option.dite_none_right_eq_some.mp h
    cases h
    exact ⟨rfl, rfl⟩
  · rintro ⟨hkind, hdestination⟩
    cases route with
    | redirect own nonempty =>
      obtain rfl := Option.some.inj hdestination
      exact dif_pos nonempty
    | _ => cases hkind

/-! ## Nothing to fall back to -/

theorem write_eq_text (fallback : String) (route : Route) :
    route.kind.write fallback route.destination? = route.text := by
  cases route <;> rfl

theorem serve_eq_serveRoute (fallback : String) (client : Http.Client)
    (peer : Net.SocketAddress) (host : String) (r : Http.Request) (route : Route) :
    route.kind.serve fallback client peer host r route.destination? =
      Http.serveRoute client peer host r route := by
  cases route <;> rfl

/-! ## Written down and read again -/

/-- A backend is read from its written form if that is trimmed and no other kind of target. -/
theorem parse_text_proxy_iff (host : String) {destination : String} (nonempty : destination ≠ "") :
    parse host (proxy destination nonempty).text = .ok (proxy destination nonempty) ↔
      IsTrimmed destination ∧ destination ≠ homeTarget ∧
        destination.toList.head? ≠ some redirectMark := by
  rw [parse_eq_ok_iff]
  show NamesBackend destination ∧ destination = trim destination ↔ _
  unfold NamesBackend
  constructor
  · rintro ⟨hbackend, htrimmed⟩
    rw [← htrimmed] at hbackend
    exact ⟨htrimmed.symm, hbackend⟩
  · rintro ⟨htrimmed, hbackend⟩
    have htrim : trim destination = destination := htrimmed
    rw [htrim]
    exact ⟨hbackend, rfl⟩

/-- A redirect is read from its written form if the destination is trimmed, whatever it begins
with. -/
theorem parse_text_redirect_iff (host : String) {destination : String}
    (nonempty : destination ≠ "") :
    parse host (redirect destination nonempty).text = .ok (redirect destination nonempty) ↔
      IsTrimmed destination := by
  rw [parse_eq_ok_iff]
  constructor
  · rintro ⟨cs, -, hdestination⟩
    exact hdestination ▸ isTrimmed_trim _
  · exact redirectsTo_text nonempty

/-! ## All together -/

/-- **The kinds of routes keep their destinations, and their meaning when they are written down.**

* A route is a kind with a destination that it goes with, and all of these are routes; the routes
  made of a destination have it, and there is none for the empty one.
* Writing a route down, and answering for it, never falls back to anything else.
* A route that was read is read from its written form.
* A route made of a destination is read from its written form exactly if no blanks are around the
  destination and, when it names a backend, it is neither `home` nor begins with the mark of a
  redirect. -/
theorem kinds_keep_destinations (host : String) :
    (∀ (kind : RouteKind) destination?, (∃ route : Route,
      route.kind = kind ∧ route.destination? = destination?) ↔ kind.Fits destination?) ∧
    (∀ destination route,
      (proxy? destination = some route ↔
        route.kind = .proxy ∧ route.destination? = some destination) ∧
      (redirect? destination = some route ↔
        route.kind = .redirect ∧ route.destination? = some destination)) ∧
    (∀ (route : Route) fallback, route.kind.write fallback route.destination? = route.text ∧
      ∀ client peer name r, route.kind.serve fallback client peer name r route.destination? =
        Http.serveRoute client peer name r route) ∧
    (∀ target route, parse host target = .ok route → parse host route.text = .ok route) ∧
    (∀ destination route, proxy? destination = some route →
      (parse host route.text = .ok route ↔ IsTrimmed destination ∧ destination ≠ homeTarget ∧
        destination.toList.head? ≠ some redirectMark)) ∧
    (∀ destination route, redirect? destination = some route →
      (parse host route.text = .ok route ↔ IsTrimmed destination)) := by
  refine ⟨exists_iff_fits, fun _ _ => ⟨proxy?_eq_some_iff, redirect?_eq_some_iff⟩, ?_,
    fun _ _ => parse_text, ?_, ?_⟩
  · intro route fallback
    exact ⟨write_eq_text fallback route, fun client peer name r =>
      serve_eq_serveRoute fallback client peer name r route⟩
  · intro destination route h
    obtain ⟨nonempty, hroute⟩ := Option.dite_none_right_eq_some.mp h
    obtain rfl := Option.some.inj hroute
    exact parse_text_proxy_iff host nonempty
  · intro destination route h
    obtain ⟨nonempty, hroute⟩ := Option.dite_none_right_eq_some.mp h
    obtain rfl := Option.some.inj hroute
    exact parse_text_redirect_iff host nonempty

/-- Blanks around the mark of a redirect go, and a second mark stays.  Made of a destination, a
backend cannot begin with a mark, and a redirect cannot begin with a blank. -/
theorem secondMark_reread : ∃ route backend spaced,
    parse "a.example" " ! !b.example " = .ok route ∧ route.text = "!!b.example" ∧
    parse "a.example" route.text = .ok route ∧
    proxy? "!b.example" = some backend ∧ parse "a.example" backend.text ≠ .ok backend ∧
    redirect? " b.example" = some spaced ∧ parse "a.example" spaced.text ≠ .ok spaced := by
  let route : Route := redirect "!b.example" (by decide)
  let backend : Route := proxy "!b.example" (by decide)
  let spaced : Route := redirect " b.example" (by decide)
  have hparse : parse "a.example" " ! !b.example " = .ok route := rfl
  have hbackend : proxy? "!b.example" = some backend := rfl
  have hspaced : redirect? " b.example" = some spaced := rfl
  obtain ⟨-, -, -, hreread, hproxy, hredirect⟩ := kinds_keep_destinations "a.example"
  refine ⟨route, backend, spaced, hparse, rfl, hreread _ route hparse, hbackend, fun h => ?_,
    hspaced, fun h => ?_⟩
  · obtain ⟨-, -, hmark⟩ := (hproxy _ backend hbackend).mp h
    exact hmark rfl
  · have htrimmed : IsTrimmed " b.example" := (hredirect _ spaced hspaced).mp h
    exact absurd htrimmed (by decide +kernel)

end Route

end Gatehouse
