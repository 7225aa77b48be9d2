import Gatehouse.Tls.Hello

/-!
# TLS records

A TLS stream is cut into records of up to 18431 octets, each with a type and a version before its
length.  A message of the handshake may fill several records.  `verdict` tells what the first
octets of a client amount to: a Client Hello, something else, or nothing complete yet.

Octets that cannot start a record are refused as soon as they are there; all else is looked at
when the record is complete.
-/

namespace Gatehouse.Tls

/-- What the octets of a client amount to. -/
inductive Verdict where
  /-- No message is complete. -/
  | incomplete
  | hello (hello : Hello)
  | invalid
deriving DecidableEq, Repr

/-- The length from which on a record is too long. -/
def recordLimit : Nat := 18432

def handshakeType : UInt8 := 22

/-- The type of records that carry data, which alone may be empty. -/
def dataType : UInt8 := 23

/-- What stands at the front of a stream. -/
inductive RecordFront where
  | incomplete
  | invalid
  | record (type : UInt8) (payload : Octets) (rest : Octets)

/-- Reads the record at the front of a stream. -/
def recordFront : Octets → RecordFront
  | [] => .incomplete
  | type :: r =>
    if !(20 ≤ type && type ≤ 24) then .invalid
    else match r with
      | major :: _minor :: r =>
        if major != 3 then .invalid
        else match r with
          | hi :: lo :: r =>
            let n := hi.toNat * 256 + lo.toNat
            if n = 0 && type != dataType then .invalid
            else if recordLimit ≤ n then .invalid
            else if r.length < n then .incomplete
            else .record type (r.take n) (r.drop n)
          | _ => .incomplete
      | _ => .incomplete

def maxMessage : Nat := 0xffff

def clientHelloType : UInt8 := 1

/-- What the joined fragments of a handshake amount to.  Nothing may follow the hello in the record
that completes it. -/
def messageVerdict : Octets → Verdict
  | type :: a :: b :: c :: body =>
    let n := Octets.toNat [a, b, c]
    if maxMessage < n then .invalid
    else if body.length < n then .incomplete
    else if type != clientHelloType || n < body.length then .invalid
    else match Hello.ofBody? body with
      | some h => .hello h
      | none => .invalid
  | _ => .incomplete

/-- What a stream amounts to after some fragments, with `fuel` bounding the number of records. -/
def streamVerdict : (fuel : Nat) → (fragments : Octets) → Octets → Verdict
  | 0, _, _ => .incomplete
  | fuel + 1, fragments, bs =>
    match recordFront bs with
    | .incomplete => .incomplete
    | .invalid => .invalid
    | .record type payload rest =>
      if type != handshakeType then .invalid
      else match messageVerdict (fragments ++ payload) with
        | .incomplete => streamVerdict fuel (fragments ++ payload) rest
        | v => v

def verdict (bs : Octets) : Verdict := streamVerdict (bs.length + 1) [] bs

/-- Whether the octets start with a complete record of the handshake. -/
def startsHandshake (bs : Octets) : Bool :=
  match recordFront bs with
  | .record type _ _ => type == handshakeType
  | _ => false

end Gatehouse.Tls
