import Gatehouse.Certificate.Calendar
import Gatehouse.Certificate.Der
import Gatehouse.Text.Ascii

/-!
# The timing of a certificate

The serial number of a certificate and the time in which it is valid.  A certificate is fresh for
two hours from the start of that time, and before it.
-/

namespace Gatehouse

/-- A moment, in nanoseconds from the start of 1970. -/
abbrev WallTime := Int

/-- The moment a number of seconds after the start of 1970. -/
def WallTime.ofSeconds (n : Int) : WallTime := n * 1000000000

/-- The whole seconds since the start of 1970. -/
def WallTime.seconds (t : WallTime) : Int := Int.fdiv t 1000000000

namespace Certificate

open Decode Der Text

/-- What the delay of a certificate depends on. -/
structure Timing where
  /-- The serial number in hexadecimal, with all the digits that are written. -/
  serial : String
  notBefore : WallTime
  notAfter : WallTime
deriving DecidableEq, Repr

/-- How long a certificate is fresh. -/
def freshAge : WallTime := WallTime.ofSeconds (2 * 60 * 60)

/-- Whether other servers may not have this certificate yet. -/
def Timing.isFresh (t : Timing) (now : WallTime) : Bool := now - t.notBefore < freshAge

/-! ## Times -/

def twoDigits : Decode Nat := do
  match readNat 10 ((Octets.latin (← take 2)).toList) with
  | some n => return n
  | none => failure

/-- Day and time of day, without the year. -/
structure DayTime where
  month : Nat
  day : Nat
  hour : Nat
  minute : Nat
  second : Nat

/-- Month, day, hour and minute, and the second if there is one. -/
def readDayTime : Decode DayTime := do
  let month ← twoDigits
  let day ← twoDigits
  let hour ← twoDigits
  let minute ← twoDigits
  let second ← if 2 ≤ (← get).length then twoDigits else pure 0
  if 23 < hour || 59 < minute || 59 < second then failure
  return ⟨month, day, hour, minute, second⟩

/-- Seconds east of Greenwich: `Z`, or a sign with hours and minutes. -/
def readZone : Decode Int := do
  match ← number 1 with
  | 0x5a => return 0
  | 0x2b => return (Int.ofNat (← twoDigits)) * 3600 + (Int.ofNat (← twoDigits)) * 60
  | 0x2d => return -((Int.ofNat (← twoDigits)) * 3600) - (Int.ofNat (← twoDigits)) * 60
  | _ => failure

/-- Skips a fraction of a second of one to three digits. -/
def skipFraction : Decode Unit := do
  match ← get with
  | b :: r =>
    if b == 0x2e || b == 0x2c then
      let digits := r.takeWhile fun b => 48 ≤ b && b ≤ 57
      if digits.isEmpty || 3 < digits.length then failure
      set (r.drop digits.length)
  | [] => return ()

def moment (year : Nat) (t : DayTime) (zone : Int) : Option Int := do
  let day ← dayNumber? year t.month t.day
  return day * 86400 + Int.ofNat (t.hour * 3600 + t.minute * 60 + t.second) - zone

/-- A time with a year of two digits, which stand for 1950 to 2049. -/
def readUtcTime : Decode Int := do
  let y ← twoDigits
  let t ← readDayTime
  let zone ← readZone
  match moment (if y < 50 then 2000 + y else 1900 + y) t zone with
  | some s => return s
  | none => failure

/-- A time with a year of four digits; the zone may be left out. -/
def readGeneralizedTime : Decode Int := do
  let y := (← twoDigits) * 100 + (← twoDigits)
  let t ← readDayTime
  skipFraction
  let zone ← if (← get).isEmpty then pure 0 else readZone
  match moment y t zone with
  | some s => return s
  | none => failure

def readTime : Decode Int := do
  let (tag, c) ← element
  let d := if tag = utcTimeTag then some readUtcTime
    else if tag = generalizedTimeTag then some readGeneralizedTime else none
  match d.bind fun d => all d c with
  | some s => return s
  | none => failure

/-! ## The certificate -/

/-- An extension: its object, whether it is critical, and its value. -/
def readExtension : Decode Unit := readSequence do
  let _ ← content objectTag
  let _ ← Der.optional booleanTag
  let _ ← content octetStringTag

/-- The extensions, which fill what is left if there is anything. -/
def readExtensions : Decode Unit := do
  if (← get).isEmpty then return ()
  let c ← content 0xa3
  match all (content sequenceTag) c with
  | none => failure
  | some es =>
    match items readExtension es with
    | some _ => return ()
    | none => failure

def readSigned : Decode Timing := readSequence do
  if let some v ← Der.optional 0xa0 then
    if (all (content integerTag) v).isNone then failure
  let serial ← content integerTag
  algorithm
  let _ ← content sequenceTag
  let (notBefore, notAfter) ← readSequence do return (← readTime, ← readTime)
  let _ ← content sequenceTag
  readSequence do algorithm; bitString
  let _ ← Der.optional 0x81
  let _ ← Der.optional 0x82
  readExtensions
  return ⟨Octets.hex serial, WallTime.ofSeconds notBefore, WallTime.ofSeconds notAfter⟩

/-- The timing of a certificate; octets may follow it. -/
def Timing.ofDer? (der : Octets) : Option Timing :=
  let d : Decode Timing := readSequence do
    let t ← readSigned
    algorithm
    bitString
    return t
  (d.run der).map (·.1)

end Certificate

end Gatehouse
