import Gatehouse.Route.Basic
import Gatehouse.Host
import Gatehouse.Text.Split

/-!
# Routing tables

A table gives each host, in canonical form, at most one route.  It is read from entries of a host
and a target, of which the last for a host wins; it is replaced as a whole, and a version number
counts the replacements so that a watcher can tell whether it has seen the current table.
-/

namespace Gatehouse

open Text

/-- Routes by canonical host, each host at most once. -/
structure Routes where
  entries : List (String × Route)

namespace Routes

def empty : Routes := ⟨[]⟩

/-- The route for a host, which has to be in canonical form. -/
def get? (rs : Routes) (host : String) : Option Route := rs.entries.lookup host

/-- The table with this route for the host, in place of an older one. -/
def insert (rs : Routes) (host : String) (route : Route) : Routes :=
  ⟨rs.entries.filter (·.1 ≠ host) ++ [(host, route)]⟩

/-- The table with the routes of another laid over its own. -/
def overlay (rs upper : Routes) : Routes :=
  upper.entries.foldl (fun rs e => rs.insert e.1 e.2) rs

/-- The hosts of the table in ascending order. -/
def hosts (rs : Routes) : List String := (rs.entries.map (·.1)).mergeSort (fun a b => a ≤ b)

/-- Reads one entry: the host in canonical form, and its route. -/
def parseEntry (host target : String) : Except RouteError (String × Route) :=
  let host := Host.canonicalTrimmed host
  if host = "" then .error .emptyHost
  else (Route.parse host target).map (host, ·)

/-- Reads `HOST=TARGET`; only the first `=` separates. -/
def parseArgument (value : String) : Except RouteError (String × Route) :=
  match cut '=' value with
  | none => .error (.missingSeparator value)
  | some (host, target) => parseEntry host target

/-- Adds entries read one after the other, up to the first that cannot be read. -/
def insertAll {α : Type} (read : α → Except RouteError (String × Route)) :
    Routes → List α → Except RouteError Routes
  | rs, [] => .ok rs
  | rs, a :: as =>
    match read a with
    | .error e => .error e
    | .ok (host, route) => insertAll read (rs.insert host route) as

/-- The table of a list of hosts with their targets. -/
def parse (entries : List (String × String)) : Except RouteError Routes :=
  insertAll (fun e => parseEntry e.1 e.2) empty entries

/-- The table of a list of `HOST=TARGET` arguments. -/
def parseArguments (values : List String) : Except RouteError Routes :=
  insertAll parseArgument empty values

end Routes

/-- A routing table in use, with the number of times it was replaced. -/
structure RouteTable where
  routes : Routes
  version : Nat := 0

namespace RouteTable

/-- The route for a host; case and trailing dots do not count. -/
def get? (t : RouteTable) (host : String) : Option Route := t.routes.get? (Host.canonical host)

def contains (t : RouteTable) (host : String) : Bool := (t.get? host).isSome

/-- The table with other routes in place; watchers have not been told. -/
def put (t : RouteTable) (routes : Routes) : RouteTable := { t with routes := routes }

/-- Watchers are told that the table was replaced. -/
def announce (t : RouteTable) : RouteTable := { t with version := t.version + 1 }

/-- The table after its routes were replaced: first they are put in place, then watchers are
told. -/
def replace (t : RouteTable) (routes : Routes) : RouteTable := (t.put routes).announce

/-- Whether the table was replaced since a watcher saw the given version. -/
def changedSince (t : RouteTable) (seen : Nat) : Bool := t.version != seen

end RouteTable

end Gatehouse
