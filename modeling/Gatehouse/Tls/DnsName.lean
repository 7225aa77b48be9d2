import Gatehouse.Text.Ascii
import Gatehouse.Text.Split

/-!
# DNS names

A DNS name is one or more labels with points between them; one point may follow the last.  A label
has one to sixty-three letters, digits, hyphens and underscores, and no hyphen at either end.  The
last label is not a number, so that no IPv4 address is a DNS name.
-/

namespace Gatehouse.Tls.DnsName

open Text

def maxLabel : Nat := 63

def maxLength : Nat := 253

def isLabelChar (c : Char) : Bool := isLetter c || isDigit c || c == '-' || c == '_'

def isLabel (cs : List Char) : Bool :=
  !cs.isEmpty && cs.length ≤ maxLabel && cs.all isLabelChar && cs.head? != some '-' &&
    cs.getLast? != some '-'

/-- The labels of a name; a point at the end is left out. -/
def labels (cs : List Char) : List (List Char) :=
  let parts := splitAll (· == '.') cs
  if parts.getLast? == some [] then parts.dropLast else parts

def isValid (s : String) : Bool :=
  let cs := s.toList
  let ls := labels cs
  cs.length ≤ maxLength && !ls.isEmpty && ls.all isLabel &&
    (ls.getLast?.map fun l => !l.all isDigit).getD false

/-- The server name that a connection to a host announces: its name in small letters, without a
point at the end.  Nothing is announced for an address. -/
def announced? (host : String) : Option String :=
  if isValid host then
    some (lower (if host.endsWith "." then String.ofList host.toList.dropLast else host))
  else none

end Gatehouse.Tls.DnsName
