import Gatehouse.Certificate.Timing
import Gatehouse.Net.Ip
import Gatehouse.Tls.DnsName

/-!
# Certificates and the names they are valid for

A certificate names the hosts it is valid for.  A name is compared without regard to case; one
that starts with `*.` stands for any one label before the rest, which has to have two labels at
least.
-/

namespace Gatehouse.Certificate

open Text

inductive SubjectName where
  | dns (name : String)
  | ip (ip : Net.Ip)
deriving DecidableEq, Repr

def SubjectName.ofText (s : String) : SubjectName :=
  match Net.Ip.ofText? s with
  | some a => .ip a
  | none => .dns s

structure Leaf where
  /-- What the certificate is called here. -/
  label : String
  names : List SubjectName
  timing : Timing
  /-- Which key pair it certifies. -/
  keyPair : Nat
deriving DecidableEq, Repr

/-- The rest of a wildcard name, after `*.`. -/
def wildcardBase? (name : String) : Option String :=
  match name.toList with
  | '*' :: '.' :: r => some (String.ofList r)
  | _ => none

/-- The fewest labels after a wildcard. -/
def minWildcardLabels : Nat := 2

/-- Whether a name can stand in a certificate: a DNS name, or a wildcard before one. -/
def isPresentable (name : String) : Bool :=
  match wildcardBase? name with
  | some base =>
    Tls.DnsName.isValid base && minWildcardLabels ≤ (Tls.DnsName.labels base.toList).length
  | none => Tls.DnsName.isValid name

/-- The DNS names of a certificate, as they are written. -/
def Leaf.dnsNames (c : Leaf) : List String :=
  c.names.filterMap fun n => match n with
    | .dns name => if isPresentable name then some name else none
    | .ip _ => none

/-- A server name without the point that may stand at its end. -/
def withoutEndPoint (serverName : String) : String :=
  if serverName.toList.getLast? = some '.' then String.ofList serverName.toList.dropLast
  else serverName

/-- Whether a name of a certificate stands for a server name.  A point at the end of the server
name is of no account; a name of a certificate that has one there stands for nothing. -/
def nameCovers (name serverName : String) : Bool :=
  let asked := withoutEndPoint serverName
  match wildcardBase? name with
  | none => caselessEq name asked
  | some base =>
    match cut '.' asked with
    | some (label, rest) => label != "" && caselessEq base rest
    | none => false

def Leaf.isValidFor (c : Leaf) (serverName : String) : Bool :=
  c.dnsNames.any fun name => nameCovers name serverName

end Gatehouse.Certificate
