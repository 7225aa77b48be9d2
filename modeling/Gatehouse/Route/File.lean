import Gatehouse.Route.Table
import Gatehouse.Octets

/-!
# Routes files

A routes file is a JSON object whose values are strings: each key is a host and its value the
target.  Of two entries with the same key the last counts.  Any other content is refused, down to
trailing commas, control characters within a string and unpaired surrogates.
-/

namespace Gatehouse

open Text

namespace RoutesFile

def isGap (c : Char) : Bool := c == ' ' || c == '\t' || c == '\n' || c == '\r'

def skipGap (cs : List Char) : List Char := cs.dropWhile isGap

def readUnit : List Char → Option (Nat × List Char)
  | a :: b :: c :: d :: r => (readNat 16 [a, b, c, d]).map (·, r)
  | _ => none

/-- The character of an escape of one letter. -/
def simpleEscape : Char → Option Char
  | '"' => some '"'
  | '\\' => some '\\'
  | '/' => some '/'
  | 'b' => some '\x08'
  | 'f' => some '\x0c'
  | 'n' => some '\n'
  | 'r' => some '\r'
  | 't' => some '\t'
  | _ => none

/-- A character written as one unit of UTF-16, or as a pair of surrogates. -/
def readUnicode (cs : List Char) : Option (Char × List Char) := do
  let (n, r) ← readUnit cs
  if 0xdc00 ≤ n && n ≤ 0xdfff then none
  else if 0xd800 ≤ n && n ≤ 0xdbff then
    match r with
    | '\\' :: 'u' :: r =>
      let (m, r) ← readUnit r
      if 0xdc00 ≤ m && m ≤ 0xdfff then
        some (Char.ofNat (0x10000 + (n - 0xd800) * 0x400 + (m - 0xdc00)), r)
      else none
    | _ => none
  else some (Char.ofNat n, r)

/-- One character of a string, escaped or not. -/
def readStringChar : List Char → Option (Char × List Char)
  | '\\' :: 'u' :: r => readUnicode r
  | '\\' :: c :: r => (simpleEscape c).map (·, r)
  | c :: r => if c.toNat < 0x20 || c == '"' || c == '\\' then none else some (c, r)
  | [] => none

/-- The rest of a string after its opening quote, with `fuel` bounding its length. -/
def readStringRest : (fuel : Nat) → List Char → Option (List Char × List Char)
  | _, '"' :: r => some ([], r)
  | 0, _ => none
  | fuel + 1, cs => do
    let (c, r) ← readStringChar cs
    let (s, r) ← readStringRest fuel r
    some (c :: s, r)

def readString : List Char → Option (String × List Char)
  | '"' :: r => (readStringRest r.length r).map fun (s, r) => (String.ofList s, r)
  | _ => none

/-- A key, a colon and a value. -/
def readMember (cs : List Char) : Option ((String × String) × List Char) := do
  let (key, r) ← readString cs
  match skipGap r with
  | ':' :: r =>
    let (value, r) ← readString (skipGap r)
    some ((key, value), skipGap r)
  | _ => none

/-- One member or more, up to the closing brace, with `fuel` bounding their number. -/
def readMembers : (fuel : Nat) → List Char → Option (List (String × String) × List Char)
  | 0, _ => none
  | fuel + 1, cs => do
    let (m, r) ← readMember cs
    match r with
    | '\x7d' :: r => some ([m], r)
    | ',' :: r =>
      let (ms, r) ← readMembers fuel (skipGap r)
      some (m :: ms, r)
    | _ => none

/-- Sets the value of a key, in its place if it is there already. -/
def setKey (key value : String) : List (String × String) → List (String × String)
  | [] => [(key, value)]
  | (k, v) :: r => if k = key then (key, value) :: r else (k, v) :: setKey key value r

/-- The entries of a routes file, each key once. -/
def entries? (content : String) : Option (List (String × String)) :=
  match skipGap content.toList with
  | '\x7b' :: r =>
    let r := skipGap r
    let members := match r with
      | '\x7d' :: r => some ([], r)
      | _ => readMembers r.length r
    match members with
    | some (ms, r) =>
      if (skipGap r).isEmpty then some (ms.foldl (fun es m => setKey m.1 m.2 es) []) else none
    | none => none
  | _ => none

end RoutesFile

inductive RoutesFileError where
  /-- The file is missing or not UTF-8. -/
  | unreadable (path : String)
  /-- The file is not a JSON object of strings. -/
  | invalid (path : String)
  | route (error : RouteError)
deriving DecidableEq, Repr

def RoutesFileError.message : RoutesFileError → String
  | unreadable path => "Error reading routes file " ++ path
  | invalid path => "Invalid routes file " ++ path
  | route error => error.message

/-- The routes of a file with this content; `none` stands for a missing file. -/
def Routes.load (path : String) (content : Option Octets) : Except RoutesFileError Routes :=
  match content.bind Octets.text? with
  | none => .error (.unreadable path)
  | some text =>
    match RoutesFile.entries? text with
    | none => .error (.invalid path)
    | some entries =>
      match Routes.parse entries with
      | .error e => .error (.route e)
      | .ok routes => .ok routes

end Gatehouse
