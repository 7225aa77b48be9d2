import Gatehouse.Text.Blank

/-!
# Routes

A route says how requests for a host are handled: by the administrative pages, by a backend, or by
a redirect to another host.  In writing, `home` stands for the first, `!host` for a redirect and
any other text for a backend.
-/

namespace Gatehouse

open Text

inductive RouteError where
  | missingSeparator (value : String)
  | emptyHost
  | emptyDestination (host : String)
deriving DecidableEq, Repr

def RouteError.message : RouteError → String
  | missingSeparator value => "Route must be in the form HOST=TARGET: " ++ value
  | emptyHost => "Empty host in route"
  | emptyDestination host => "Empty destination for host " ++ host

/-- How requests for a host are handled. -/
inductive Route where
  /-- The administrative pages. -/
  | home
  /-- A backend, by its authority. -/
  | proxy (destination : String) (nonempty : destination ≠ "")
  /-- A redirect to another host. -/
  | redirect (destination : String) (nonempty : destination ≠ "")
deriving DecidableEq

namespace Route

def homeTarget : String := "home"

def redirectMark : Char := '!'

/-- The route to a backend, unless its name is empty. -/
def proxy? (destination : String) : Option Route :=
  if h : destination ≠ "" then some (.proxy destination h) else none

/-- The redirect to a host, unless its name is empty. -/
def redirect? (destination : String) : Option Route :=
  if h : destination ≠ "" then some (.redirect destination h) else none

/-- Where the route leads, if it leaves the administrative pages. -/
def destination? : Route → Option String
  | home => none
  | proxy d _ => some d
  | redirect d _ => some d

def text : Route → String
  | home => homeTarget
  | proxy d _ => d
  | redirect d _ => String.ofList (redirectMark :: d.toList)

/-- Reads the target of a route, for a host that an error can name. -/
def parse (host target : String) : Except RouteError Route :=
  let target := trim target
  if target = homeTarget then .ok home
  else
    let route := match target.toList with
      | c :: r => if c = redirectMark then redirect? (trim (String.ofList r)) else proxy? target
      | [] => none
    match route with
    | some r => .ok r
    | none => .error (.emptyDestination host)

end Route

end Gatehouse
