import Gatehouse.Certificate.Acme
import Gatehouse.Route.Table

/-!
# Choosing a certificate

A connection gets the certificate on disk that is valid for its server name; if there is none and
the name is routed, that of ACME.  The domains that ACME orders for follow the routing table: a
keeper waits for a version of the table that it has not seen, marks it as seen, and only then reads
the table and gives its domains.  Whoever replaces the table puts the routes in place before the
version is raised, and several replacements may go on at a time.

    choose            : where the certificate of a connection comes from
    DomainKeeper.step : what the keeper and those who replace the table do, one step at a time
-/

namespace Gatehouse.Certificate

/-- Where the certificate of a connection comes from. -/
inductive Choice where
  | manual (leaf : Leaf)
  | acme
  | none
deriving DecidableEq, Repr

def choose (manual : Store) (table : RouteTable) (serverName : Option String) : Choice :=
  match serverName with
  | none => .none
  | some name =>
    match manual.get? name with
    | some leaf => .manual leaf
    | none => if table.contains name then .acme else .none

inductive KeeperPhase where
  | waiting
  /-- A version was seen; the table is about to be read. -/
  | reading
  /-- The table was read; these domains are about to be given. -/
  | giving (domains : List String)
deriving DecidableEq, Repr

/-- Keeps the domains of ACME in step with a routing table. -/
structure DomainKeeper where
  manual : Store
  table : RouteTable
  /-- How many replacements have put their routes in place and not raised the version yet. -/
  unannounced : Nat := 0
  /-- The version of the table that was seen last. -/
  seen : Option Nat := none
  phase : KeeperPhase := .waiting
  /-- The lists of domains that were given, the last first. -/
  given : List (List String) := []

inductive KeeperAct where
  /-- A replacement puts its routes in place. -/
  | put (routes : Routes)
  /-- A replacement that has done so raises the version. -/
  | announce
  | notice
  | read
  | give

namespace DomainKeeper

def currentDomains (k : DomainKeeper) : List String := acmeDomains k.manual k.table.routes.hosts

/-- One step; an action that cannot happen now changes nothing. -/
def step (k : DomainKeeper) : KeeperAct → DomainKeeper
  | .put routes => { k with table := k.table.put routes, unannounced := k.unannounced + 1 }
  | .announce =>
    if 0 < k.unannounced then
      { k with table := k.table.announce, unannounced := k.unannounced - 1 }
    else k
  | .notice =>
    match k.phase with
    | .waiting =>
      if k.seen = some k.table.version then k
      else { k with seen := some k.table.version, phase := .reading }
    | _ => k
  | .read =>
    match k.phase with
    | .reading => { k with phase := .giving k.currentDomains }
    | _ => k
  | .give =>
    match k.phase with
    | .giving domains => { k with given := domains :: k.given, phase := .waiting }
    | _ => k

def run (k : DomainKeeper) (acts : List KeeperAct) : DomainKeeper := acts.foldl step k

/-- The table is replaced before anything else happens. -/
def replace (k : DomainKeeper) (routes : Routes) : DomainKeeper := k.run [.put routes, .announce]

/-- Gives the domains of the current table, if it has not been seen. -/
def catchUp (k : DomainKeeper) : DomainKeeper := k.run [.notice, .read, .give]

def domains? (k : DomainKeeper) : Option (List String) := k.given.head?

/-- Whether there is something to order, and so challenges may come. -/
def answersChallenges (k : DomainKeeper) : Bool := k.domains?.any fun ds => !ds.isEmpty

end DomainKeeper

end Gatehouse.Certificate
