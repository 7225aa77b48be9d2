import Gatehouse.Certificate.Resolver
import Gatehouse.Tls.DnsName

/-!
# Trying out the choice of certificates

A keeper of domains, with somebody who takes its orders or without.  Certificates are told by
their names, and those that were ordered share one.
-/

namespace Gatehouse.Script

open Certificate

/-- The name of certificates that were ordered. -/
def orderedName : String := "<acme>"

/-- A keeper of domains that is tried out. -/
structure ResolverTrial where
  keeper : DomainKeeper
  /-- Whether certificates are ordered. -/
  ordering : Bool

namespace ResolverTrial

def start (manual : Store) (routes : Routes) (ordering : Bool) : ResolverTrial :=
  ⟨DomainKeeper.catchUp { manual, table := { routes } }, ordering⟩

/-- The name of the certificate that a client with some server name gets, if it gets one. -/
def certificate? (t : ResolverTrial) (host : Option String) : Option String :=
  match choose t.keeper.manual t.keeper.table (host.bind Tls.DnsName.announced?) with
  | .manual leaf => some leaf.label
  | .acme => if t.ordering then some orderedName else none
  | .none => none

def replace (t : ResolverTrial) (routes : Routes) : ResolverTrial :=
  { t with keeper := (t.keeper.replace routes).catchUp }

/-- The domains that were ordered for last, in ascending order. -/
def domains? (t : ResolverTrial) : Option (List String) :=
  if t.ordering then t.keeper.domains?.map domainSet else none

def updates (t : ResolverTrial) : Nat := if t.ordering then t.keeper.given.length else 0

def answersChallenges (t : ResolverTrial) : Bool := t.ordering && t.keeper.answersChallenges

end ResolverTrial

end Gatehouse.Script
