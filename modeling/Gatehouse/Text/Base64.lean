import Gatehouse.Octets

/-!
# Base 64

Three octets are written as four characters of six bits each.  Texts are written without padding;
one that is read may have some.
-/

namespace Gatehouse.Text.Base64

def alphabet : List Char :=
  "ABCDEFGHIJKLMNOPQRSTUVWXYZabcdefghijklmnopqrstuvwxyz0123456789+/".toList

/-- The digit for a number below sixty-four. -/
def digit (n : Nat) : Char := alphabet.getD n 'A'

/-- The number that a digit stands for. -/
def digitValue? (c : Char) : Option Nat :=
  match alphabet.idxOf c with
  | n => if n < 64 then some n else none

/-- The digits of some octets. -/
def encodeChars : Octets → List Char
  | [] => []
  | [a] =>
    let n := a.toNat * 16
    [digit (n / 64), digit (n % 64)]
  | [a, b] =>
    let n := (a.toNat * 256 + b.toNat) * 4
    [digit (n / 4096), digit (n / 64 % 64), digit (n % 64)]
  | a :: b :: c :: r =>
    let n := (a.toNat * 256 + b.toNat) * 256 + c.toNat
    digit (n / 262144) :: digit (n / 4096 % 64) :: digit (n / 64 % 64) :: digit (n % 64) ::
      encodeChars r

/-- Writes octets without padding. -/
def encode (bs : Octets) : String := String.ofList (encodeChars bs)

/-- The octets of a list of numbers below sixty-four; bits that do not fill an octet are left
out. -/
def decodeDigits : List Nat → Octets
  | a :: b :: c :: d :: r =>
    let n := ((a * 64 + b) * 64 + c) * 64 + d
    (n / 65536).toUInt8 :: (n / 256).toUInt8 :: n.toUInt8 :: decodeDigits r
  | [a, b, c] =>
    let n := (a * 64 + b) * 64 + c
    [(n / 1024).toUInt8, (n / 4).toUInt8]
  | [a, b] => [((a * 64 + b) / 16).toUInt8]
  | _ => []

/-- Reads octets, with or without padding. -/
def decode? (s : String) : Option Octets := do
  let digits ← (s.toList.filter (· != '=')).mapM digitValue?
  if digits.length % 4 = 1 then none else return decodeDigits digits

end Gatehouse.Text.Base64
