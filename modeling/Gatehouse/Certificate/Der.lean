import Gatehouse.Octets.Decode

/-!
# DER

Values are written as a tag, a length and a content.  Lengths are definite; those of 128 and more
are written as the number of their octets and these octets.
-/

namespace Gatehouse.Certificate.Der

open Decode

/-- The tags of the values that a certificate is made of. -/
def booleanTag : UInt8 := 0x01
def integerTag : UInt8 := 0x02
def bitStringTag : UInt8 := 0x03
def octetStringTag : UInt8 := 0x04
def objectTag : UInt8 := 0x06
def utcTimeTag : UInt8 := 0x17
def generalizedTimeTag : UInt8 := 0x18
def sequenceTag : UInt8 := 0x30

/-- The most octets that a length is written in. -/
def maxLengthOctets : Nat := 8

def length : Decode Nat := do
  let n ← number 1
  if n < 128 then return n
  else if n = 128 || maxLengthOctets < n - 128 then failure
  else number (n - 128)

/-- A value: its tag and its content. -/
def element : Decode (UInt8 × Octets) := do
  let tag ← number 1
  if tag % 32 = 31 then failure
  return (tag.toUInt8, ← take (← length))

def content (tag : UInt8) : Decode Octets := do
  let (t, c) ← element
  if t = tag then return c else failure

/-- The content of a value with the given tag, if one comes next. -/
def optional (tag : UInt8) : Decode (Option Octets) := do
  match ← get with
  | t :: _ => if t = tag then return some (← content tag) else return none
  | [] => return none

/-- A sequence, read from its front; what a reader leaves of it does not matter. -/
def readSequence {α : Type} (d : Decode α) : Decode α := do
  match d.run (← content sequenceTag) with
  | some (a, _) => return a
  | none => failure

/-- A string of bits, which starts with the number of those that are unused. -/
def bitString : Decode Unit := do
  match ← content bitStringTag with
  | unused :: _ => if unused ≤ 7 then return () else failure
  | [] => failure

/-- An algorithm, which is named by an object and may have parameters. -/
def algorithm : Decode Unit := readSequence do
  let _ ← content objectTag
  if !(← get).isEmpty then
    let _ ← element

end Gatehouse.Certificate.Der
