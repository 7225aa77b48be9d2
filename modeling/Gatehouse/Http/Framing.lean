import Gatehouse.Http.Message

/-!
# How a response is framed

A response starts with a status line and header fields, each ended by a line feed with an optional
carriage return before it, up to an empty line.  Where its body ends follows from the method of the
request, the status and the headers: at once, after a number of octets, after the last chunk, or
where the connection ends.

    Response.ofOctets? : a response from all octets that a connection brought
-/

namespace Gatehouse.Http

open Text

/-! ## Lines -/

/-- The octets up to a line feed, without a carriage return right before it, and those after. -/
def readLine (bs : Octets) : Option (Octets × Octets) :=
  (splitFirst (· == 10) bs).map fun (line, r) =>
    (if line.getLast? == some 13 then line.dropLast else line, r)

/-- The octets that may stand in the name of a field. -/
def isTokenOctet (b : UInt8) : Bool :=
  let c := Char.ofNat b.toNat
  isLetter c || isDigit c || "!#$%&'*+-.^_|~".toList.contains c || b == 96

def trimValue (bs : Octets) : Octets :=
  dropEndWhile (fun b => b == 32 || b == 9) (bs.dropWhile fun b => b == 32 || b == 9)

def Field.ofLine? (line : Octets) : Option Field :=
  match splitFirst (· == 58) line with
  | none => none
  | some (name, value) =>
    if name.isEmpty || !name.all isTokenOctet || !value.all isFieldOctet then none
    else some ⟨lower (Octets.latin name), trimValue value⟩

def maxFields : Nat := 100

/-- Reads up to `room` fields and the empty line after them. -/
def readFields : (room : Nat) → Octets → Option (Headers × Octets)
  | room, bs => do
    let (line, r) ← readLine bs
    if line.isEmpty then some ([], r)
    else match room with
      | 0 => none
      | room + 1 =>
        let field ← Field.ofLine? line
        let (fields, r) ← readFields room r
        some (field :: fields, r)

/-! ## The status line -/

structure ResponseHead where
  /-- Whether the version is 1.0 rather than 1.1. -/
  old : Bool
  status : Nat
  headers : Headers

/-- Version and status of a status line; a reason may follow the status. -/
def statusOfLine? (line : Octets) : Option (Bool × Nat) := do
  let text := (Octets.latin line).toList
  let version := text.take 9
  let old ← if version == "HTTP/1.1 ".toList then some false
    else if version == "HTTP/1.0 ".toList then some true else none
  let status ← readNat 10 ((text.drop 9).take 3)
  if (text.drop 9).length < 3 || status < 100 then none
  else match line.drop 12 with
    | [] => some (old, status)
    | 32 :: reason => if reason.all isFieldOctet then some (old, status) else none
    | _ => none

def skipEmptyLines : Octets → Octets
  | 13 :: 10 :: r => skipEmptyLines r
  | 10 :: r => skipEmptyLines r
  | bs => bs

def ResponseHead.read (bs : Octets) : Option (ResponseHead × Octets) := do
  let (line, r) ← readLine (skipEmptyLines bs)
  let (old, status) ← statusOfLine? line
  let (headers, r) ← readFields maxFields r
  some (⟨old, status, headers⟩, r)

/-! ## The body -/

/-- Where a body ends. -/
inductive Framing where
  | sized (length : Nat)
  | chunked
  | untilClose
deriving DecidableEq, Repr

def maxLength : Nat := 0xffffffffffffffff

/-- The length that the headers announce: all values, and the parts of a value between commas,
must be the same number. -/
def announcedLength (hs : Headers) : Option Nat :=
  let parts := (hs.values "content-length").map fun value => do
    let text ← visibleText? value
    (splitAll (· == ',') text.toList).mapM fun part => do
      let n ← readNat 10 (trimChars part)
      if n ≤ maxLength then some n else none
  match parts.mapM id with
  | none => none
  | some lists =>
    match lists.flatten with
    | [] => none
    | n :: r => if r.all (· == n) then some n else none

/-- Whether chunked is the last of the transfer codings. -/
def endsChunked (hs : Headers) : Bool :=
  match (hs.values "transfer-encoding").getLast? with
  | none => false
  | some value =>
    match visibleText? value with
    | none => false
    | some text =>
      ((splitAll (· == ',') text.toList).getLast?.map fun part =>
        caselessEq (String.ofList (trimChars part)) "chunked").getD false

/-- How the body of a response to a method is framed; `none` if the headers are in conflict. -/
def ResponseHead.framing (head : ResponseHead) (method : String) : Option Framing :=
  if head.status == 101 || head.status == 204 || head.status == 304 then some (.sized 0)
  else if method == "HEAD" then some (.sized 0)
  else if method == "CONNECT" && 200 ≤ head.status && head.status < 300 then some (.sized 0)
  else if head.headers.has "transfer-encoding" then
    if head.old then none
    else if endsChunked head.headers then some .chunked else some .untilClose
  else match announcedLength head.headers with
    | some n => some (.sized n)
    | none => if head.headers.has "content-length" then none else some .untilClose

/-- The size of a chunk at the front of its line; extensions after a semicolon are skipped. -/
def chunkSize? (line : Octets) : Option Nat :=
  let text := (Octets.latin line).toList
  let digits := text.takeWhile fun c => (digitOf 16 c).isSome
  match (text.drop digits.length).dropWhile fun c => c == ' ' || c == '\t' with
  | [] => (readNat 16 digits).filter (· ≤ maxLength)
  | ';' :: _ => (readNat 16 digits).filter (· ≤ maxLength)
  | _ => none

/-- The octets up to a carriage return and line feed, and those after. -/
def readCrlfLine (bs : Octets) : Option (Octets × Octets) :=
  match splitFirst (· == 13) bs with
  | some (line, 10 :: r) => some (line, r)
  | _ => none

/-- Skips trailer lines up to the empty one, with `fuel` bounding their number. -/
def skipTrailers : (fuel : Nat) → Octets → Option Octets
  | 0, _ => none
  | fuel + 1, bs =>
    match readCrlfLine bs with
    | none => none
    | some ([], r) => some r
    | some (_, r) => skipTrailers fuel r

/-- The content of chunks up to the last one, with `fuel` bounding their number. -/
def readChunks : (fuel : Nat) → Octets → Option Octets
  | 0, _ => none
  | fuel + 1, bs => do
    let (line, r) ← readCrlfLine bs
    if line.contains 10 then none
    let n ← chunkSize? line
    if n = 0 then
      let _ ← skipTrailers (r.length + 1) r
      some []
    else
      let chunk := r.take n
      if chunk.length < n then none
      else match r.drop n with
        | 13 :: 10 :: r => (readChunks fuel r).map (chunk ++ ·)
        | _ => none

/-- The body at the front of the octets that a connection brought until it ended. -/
def Framing.body (f : Framing) (bs : Octets) : Body :=
  match f with
  | sized n => ⟨if bs.length < n then none else some (bs.take n), some n⟩
  | chunked => ⟨readChunks (bs.length + 1) bs, none⟩
  | untilClose => ⟨some bs, none⟩

/-- The response to a request of the given method, from all octets that a connection brought until
it ended.  Informational responses are skipped, apart from the one that switches protocols. -/
def Response.ofOctets? (method : String) (bs : Octets) : Option Response := go bs.length bs
where
  /-- Reads the first response that is not informational. -/
  go : Nat → Octets → Option Response
    | fuel, bs => do
      let (head, r) ← ResponseHead.read bs
      if head.status < 200 && head.status != 101 then
        match fuel with
        | 0 => none
        | fuel + 1 => go fuel r
      else
        let framing ← head.framing method
        some ⟨head.status, head.headers, framing.body r⟩

end Gatehouse.Http
