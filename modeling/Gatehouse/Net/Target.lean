import Gatehouse.Net.Authority
import Gatehouse.Octets

/-!
# Request targets

What a request asks for: a path with an optional query (`/x?y`), an absolute URI, the authority
alone (`host:port`), or the asterisk.  The authority form has no path; in the other forms an
empty path and query stand for `/`.
-/

namespace Gatehouse.Net

open Text

/-- A path and an optional query; the path of an absolute URI may be empty. -/
structure PathQuery where
  path : String
  query : Option String := none
deriving DecidableEq, Repr

namespace PathQuery

def root : PathQuery := ⟨"/", none⟩

/-- The path and query as they are written; nothing at all is written `/`. -/
def text (p : PathQuery) : String :=
  let s := p.path ++ (p.query.map ("?" ++ ·)).getD ""
  if s.isEmpty then "/" else s

/-- The path that is asked for: an empty path is the root. -/
def effectivePath (p : PathQuery) : String := if p.path.isEmpty then "/" else p.path

/-- The form on a request line, where the path is never empty. -/
def requestForm (p : PathQuery) : String :=
  p.effectivePath ++ (p.query.map ("?" ++ ·)).getD ""

/-- The characters of a path; those beyond ASCII may stand unescaped, and so may quotes and
braces, but no control character. -/
def isPathChar (c : Char) : Bool :=
  let n := c.toNat
  n == 0x21 || n == 0x22 || (0x24 ≤ n && n ≤ 0x3b) || n == 0x3d || (0x40 ≤ n && n ≤ 0x5f) ||
    (0x61 ≤ n && n ≤ 0x7e) || 0x80 ≤ n

def isQueryChar (c : Char) : Bool :=
  let n := c.toNat
  n == 0x21 || (0x24 ≤ n && n ≤ 0x3b) || n == 0x3d || (0x3f ≤ n && n ≤ 0x7e) || 0x80 ≤ n

/-- Reads a path and query; a fragment is left out unread. -/
def ofChars? (cs : List Char) : Option PathQuery :=
  let path := cs.takeWhile fun c => c != '?' && c != '#'
  if !path.all isPathChar then none
  else match cs.drop path.length with
    | '?' :: r =>
      let query := r.takeWhile (· != '#')
      if query.all isQueryChar then some ⟨String.ofList path, some (String.ofList query)⟩ else none
    | _ => some ⟨String.ofList path, none⟩

end PathQuery

inductive Target where
  | origin (path : PathQuery)
  | absolute (scheme : String) (authority : Authority) (path : PathQuery)
  | authority (authority : Authority)
  | asterisk
deriving DecidableEq, Repr

namespace Target

/-- The path and query, in all forms but the bare authority. -/
def pathQuery? : Target → Option PathQuery
  | origin p => some p
  | absolute _ _ p => some p
  | authority _ => none
  | asterisk => some ⟨"*", none⟩

/-- The path that is asked for; the authority form has an empty one. -/
def path (t : Target) : String := (t.pathQuery?.map PathQuery.effectivePath).getD ""

/-- The authority that is named, in the absolute and the authority form. -/
def authority? : Target → Option Authority
  | absolute _ a _ => some a
  | authority a => some a
  | _ => none

def isSchemeChar (c : Char) : Bool :=
  isLetter c || isDigit c || c == '+' || c == '-' || c == '.' || c == '~'

/-- The longest scheme accepted, other than `http` and `https`. -/
def maxScheme : Nat := 64

/-- Takes a scheme with its `://` from the front, if there is one. -/
def readScheme (cs : List Char) : Option (String × List Char) :=
  let scheme := cs.takeWhile isSchemeChar
  match cs.drop scheme.length with
  | ':' :: '/' :: '/' :: r => if scheme.isEmpty then none else some (String.ofList scheme, r)
  | _ => none

/-- The longest target accepted, in octets. -/
def maxLength : Nat := 65534

def ofText? (s : String) : Option Target :=
  if maxLength < s.utf8ByteSize then none
  else match s.toList with
    | [] => none
    | ['*'] => some .asterisk
    | '/' :: r => (PathQuery.ofChars? ('/' :: r)).map .origin
    | cs =>
      match readScheme cs with
      | none => (Authority.ofText? s).map .authority
      | some (scheme, r) =>
        if maxScheme < scheme.length then none
        else do
          let n ← Authority.scan r
          if n = 0 then none
          else return .absolute scheme ⟨String.ofList (r.take n)⟩ (← PathQuery.ofChars? (r.drop n))

end Target

end Gatehouse.Net
