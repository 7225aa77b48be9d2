import Gatehouse.Octets.Decode
import Gatehouse.Net.Ip
import Gatehouse.Tls.DnsName

/-!
# Client Hellos

The first message of a TLS client offers versions, cipher suites and extensions.  Two of these
matter here: the name of the server that the client wants, and the protocols that it speaks once
the connection is secure.  The whole message has to be well formed all the same: every extension
that is known has to read as what it stands for, and none may come twice.
-/

namespace Gatehouse.Tls

/-- What a Client Hello says about the connection. -/
structure Hello where
  serverName : Option String := none
  protocols : List Octets := []
deriving DecidableEq, Repr

/-- The protocol of certificate challenges. -/
def acmeProtocol : Octets := Octets.ofText "acme-tls/1"

/-- Whether the hello belongs to a certificate challenge: it names a server, and the only protocol
it offers is that of challenges. -/
def Hello.isAcmeChallenge (h : Hello) : Bool :=
  h.serverName.isSome && h.protocols == [acmeProtocol]

theorem Hello.isAcmeChallenge_iff {h : Hello} :
    h.isAcmeChallenge = true ↔ h.serverName.isSome = true ∧ h.protocols = [acmeProtocol] := by
  simp [isAcmeChallenge]

open Decode

/-! ## Extensions -/

/-- An entry of the list of server names. -/
inductive NameEntry where
  | host (name : String)
  | address
  | unknown

/-- A name that has to be a DNS name or an IP address. -/
def readHostName : Decode NameEntry := do
  match (← block1 2) |> Octets.text? with
  | none => failure
  | some name =>
    if DnsName.isValid name then return .host (Text.lower name)
    else if (Net.Ip.ofText? name).isSome then return .address
    else failure

/-- An entry of the list of server names; what follows an unknown type is left unread. -/
def readNameEntry : Decode NameEntry := do
  match ← number 1 with
  | 0 => readHostName
  | _ => let _ ← rest; return .unknown

/-- The server name, if it is a DNS name; a single name has to be there. -/
def readServerName : Decode (Option String) := do
  let entries ← list1 2 readNameEntry
  match entries.filter fun e => match e with | .unknown => false | _ => true with
  | [.host name] => return some name
  | [.address] => return none
  | _ => failure

/-- The type of an extension that has to occur. -/
def signaturesType : Nat := 13

/-- The type of an extension that may only come last. -/
def presharedKeyType : Nat := 41

inductive Extension where
  | serverName (name : Option String)
  | protocols (names : List Octets)
  | signatures
  | other

def readStatusRequest : Decode Unit := do
  match ← number 1 with
  | 1 => let _ ← list 2 (block 2); let _ ← block 2
  | _ => let _ ← rest

/-- The offer of keys that both sides know already. -/
def readPresharedKeys : Decode Unit := do
  let _ ← list1 2 (do let _ ← block1 2; number 4)
  let _ ← list1 2 (block1 1)

/-- An encrypted hello, outer or inner. -/
def readEncryptedHello : Decode Unit := do
  match ← number 1 with
  | 0 =>
    let _ ← take 5
    let _ ← block 2
    let _ ← block1 2
  | 1 => return ()
  | _ => failure

/-- Reads and drops. -/
def skip {α : Type} (d : Decode α) : Decode Extension := do let _ ← d; return .other

/-- The content of an extension of the given type. -/
def readExtension (type : Nat) : Decode Extension :=
  match type with
  | 0 => return .serverName (← readServerName)
  | 5 => skip readStatusRequest
  | 10 => skip (list1 2 (number 2))
  | 11 => skip (list1 1 (number 1))
  | 13 => do let _ ← list1 2 (number 2); return .signatures
  | 16 => return .protocols (← list1 2 (block1 1))
  | 19 => skip (list1 1 (number 1))
  | 20 => skip (list1 1 (number 1))
  | 23 => return .other
  | 27 => skip (list1 1 (number 2))
  | 41 => skip readPresharedKeys
  | 42 => return .other
  | 43 => skip (list1 1 (number 2))
  | 44 => skip (block1 2)
  | 45 => skip (list1 1 (number 1))
  | 47 => skip (list1 2 (block1 2))
  | 51 => skip (list 2 (do let _ ← number 2; block1 2))
  | 0xff01 => skip (block 1)
  | 0xfe0d => skip readEncryptedHello
  | 0xfd00 => skip (list 1 (number 2))
  | _ => skip rest

def readTyped : Decode (Nat × Extension) := do
  let type ← number 2
  match all (readExtension type) (← block 2) with
  | some e => return (type, e)
  | none => failure

/-! ## The message -/

def distinct : List Nat → Bool
  | [] => true
  | n :: r => !r.contains n && distinct r

/-- What the extensions of an acceptable hello say: none comes twice, signature algorithms are
offered, and known keys come last. -/
def helloOfExtensions (es : List (Nat × Extension)) : Option Hello :=
  let types := es.map (·.1)
  if !distinct types || !types.contains signaturesType || types.dropLast.contains presharedKeyType
  then none
  else some
    { serverName := es.findSome? fun e => match e.2 with | .serverName n => n | _ => none
      protocols :=
        (es.findSome? fun e => match e.2 with | .protocols p => some p | _ => none).getD [] }

def maxSession : Nat := 32

def readHello : Decode Hello := do
  let _ ← take 2
  let _ ← take 32
  let session ← block 1
  if maxSession < session.length then failure
  let _ ← list1 2 (number 2)
  let compressions ← list1 1 (number 1)
  if !compressions.contains 0 then failure
  if (← get).isEmpty then failure
  match helloOfExtensions (← list 2 readTyped) with
  | some h => return h
  | none => failure

def Hello.ofBody? (bs : Octets) : Option Hello := all readHello bs

end Gatehouse.Tls
