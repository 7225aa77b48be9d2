import Gatehouse.Octets
import Gatehouse.Text.Ascii
import Gatehouse.Text.Blank
import Gatehouse.Text.Split

/-!
# Paths of URLs

The path and query of an HTTP URL as they are requested: backslashes count as slashes, the parts
`.` and `..` are resolved, a fragment is dropped, and characters that may not stand in a URL are
written as percent signs with the digits of their octets.  A reference is resolved against the
path it was found under.
-/

namespace Gatehouse.Net

open Text

/-- A path, as its parts after slashes, and a query. -/
structure UrlPath where
  parts : List String
  query : Option String := none
deriving DecidableEq, Repr

namespace UrlPath

/-- An octet as a percent sign and two digits. -/
def percent (b : UInt8) : List Char :=
  ['%', (Octets.hexDigit (b.toNat / 16)).toUpper, (Octets.hexDigit (b.toNat % 16)).toUpper]

/-- A character as it is requested: escaped if `special` says so or if it is not printable ASCII. -/
def escape (special : List Char) (c : Char) : List Char :=
  if c.toNat ≤ 0x20 || 0x7f ≤ c.toNat || special.contains c then
    (Octets.ofText (String.ofList [c])).flatMap percent
  else [c]

def pathSpecial : List Char := "\"#<>?^`".toList ++ ['\x7b', '\x7d']

/-- The characters that are escaped in a query. -/
def querySpecial : List Char := "\"#<>'".toList

/-- Whether a part stands for the directory itself. -/
def isDot (s : String) : Bool := [".", "%2e"].contains (lower s)

/-- Whether a part stands for the directory above. -/
def isDotDot (s : String) : Bool := ["..", ".%2e", "%2e.", "%2e%2e"].contains (lower s)

/-- The parts with dots resolved, from a start. -/
def resolveParts : (done : List String) → List String → List String
  | done, [] => done
  | done, [p] =>
    if isDotDot p then done.dropLast ++ [""] else if isDot p then done ++ [""] else done ++ [p]
  | done, p :: ps =>
    if isDotDot p then resolveParts done.dropLast ps
    else if isDot p then resolveParts done ps
    else resolveParts (done ++ [p]) ps

/-- The text without tabs and line breaks, and without blank and control characters around it. -/
def tidy (s : String) : List Char :=
  let outer (c : Char) : Bool := c.toNat ≤ 0x20
  (dropEndWhile outer (s.toList.dropWhile outer)).filter fun c =>
    c != '\t' && c != '\n' && c != '\r'

/-- Path and query of a reference, without the fragment. -/
def cutReference (cs : List Char) : List Char × Option (List Char) :=
  let cs := cs.takeWhile (· != '#')
  match splitFirst (· == '?') cs with
  | some (path, query) => (path, some query)
  | none => (cs, none)

def partsOf (path : List Char) : List String :=
  (splitAll (fun c => c == '/' || c == '\\') path).map fun p =>
    String.ofList (p.flatMap (escape pathSpecial))

def queryOf (query : List Char) : String := String.ofList (query.flatMap (escape querySpecial))

/-- The path that a reference leads to from here.  A reference with a scheme or a host leads
elsewhere. -/
def resolve (base : UrlPath) (reference : String) : Option UrlPath :=
  let cs := tidy reference
  let (path, query) := cutReference cs
  let query := query.map queryOf
  let slash (c : Char) : Bool := c == '/' || c == '\\'
  let scheme := cs.takeWhile fun c => isLetter c || isDigit c || c == '+' || c == '-' || c == '.'
  if scheme.head?.any isLetter && (cs.drop scheme.length).head? == some ':' then none
  else match path with
    | [] => some { base with query := if query.isSome then query else base.query }
    | a :: r =>
      if slash a && r.head?.any slash then none
      else if slash a then some ⟨resolveParts [] (partsOf r), query⟩
      else some ⟨resolveParts base.parts.dropLast (partsOf path), query⟩

/-- The path of a URL whose host is followed by this text. -/
def ofSuffix? (suffix : String) : Option UrlPath :=
  match tidy suffix with
  | [] => some ⟨[""], none⟩
  | a :: r =>
    let (path, query) := cutReference (a :: r)
    let query := query.map queryOf
    if a == '/' || a == '\\' then some ⟨resolveParts [] (partsOf path.tail), query⟩
    else if a == '?' || a == '#' then some ⟨[""], query⟩
    else none

/-- The path and query as they are requested. -/
def text (p : UrlPath) : String :=
  "/" ++ "/".intercalate p.parts ++ (p.query.map ("?" ++ ·)).getD ""

end UrlPath

end Gatehouse.Net
