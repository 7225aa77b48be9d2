import Gatehouse.Text.Ascii
import Gatehouse.Text.Blank

/-!
# Durations

A duration is written as numbers with units, such as `1h 30m` or `2.5s`; blank characters may
stand anywhere but within a unit, and `0` alone needs no unit.  Fractions of minutes and shorter
units count to the nanosecond, those of hours and longer units to the second.  A value that does
not fit sixty-four bits on the way is refused.
-/

namespace Gatehouse

open Text

structure Duration where
  seconds : Nat
  nanos : Nat
deriving DecidableEq, Repr

namespace Duration

def ofSeconds (n : Nat) : Duration := ⟨n, 0⟩

/-- Whole milliseconds, rounded down. -/
def toMillis (d : Duration) : Nat := d.seconds * 1000 + d.nanos / 1000000

def isZero (d : Duration) : Bool := d.seconds == 0 && d.nanos == 0

def maxNumber : Nat := 0xffffffffffffffff

def fit (n : Nat) : Option Nat := if n ≤ maxNumber then some n else none

inductive TimeUnit where
  | nanosecond | microsecond | millisecond | second | minute | hour | day | week | month | year
deriving DecidableEq, Repr

def TimeUnit.names : TimeUnit → List String
  | nanosecond => ["nanos", "nsec", "ns"]
  | microsecond => ["usec", "us", "µs"]
  | millisecond => ["millis", "msec", "ms"]
  | second => ["seconds", "second", "secs", "sec", "s"]
  | minute => ["minutes", "minute", "mins", "min", "m"]
  | hour => ["hours", "hour", "hrs", "hr", "h"]
  | day => ["days", "day", "d"]
  | week => ["weeks", "week", "wks", "wk", "w"]
  | month => ["months", "month", "M"]
  | year => ["years", "year", "yrs", "yr", "y"]

def TimeUnit.every : List TimeUnit :=
  [nanosecond, microsecond, millisecond, second, minute, hour, day, week, month, year]

def TimeUnit.ofName? (name : String) : Option TimeUnit :=
  every.find? fun u => u.names.contains name

/-- Seconds and nanoseconds of one unit; a month is 30.44 days and a year 365.25. -/
def TimeUnit.length : TimeUnit → Nat × Nat
  | nanosecond => (0, 1)
  | microsecond => (0, 1000)
  | millisecond => (0, 1000000)
  | second => (1, 0)
  | minute => (60, 0)
  | hour => (3600, 0)
  | day => (86400, 0)
  | week => (604800, 0)
  | month => (2630016, 0)
  | year => (31557600, 0)

/-- What a fraction of a unit is taken of: seconds or nanoseconds.  Nanoseconds have none. -/
def TimeUnit.fractionOf : TimeUnit → Option (Nat × Nat)
  | nanosecond => none
  | second => some (0, 1000000000)
  | minute => some (0, 60000000000)
  | u => some u.length

def add? (d : Duration) (seconds nanos : Nat) : Option Duration := do
  let nanos ← fit (d.nanos + nanos)
  let seconds ← fit (seconds + nanos / 1000000000)
  return ⟨← fit (d.seconds + seconds), nanos % 1000000000⟩

def addWhole? (d : Duration) (n : Nat) (u : TimeUnit) : Option Duration := do
  d.add? (← fit (n * u.length.1)) (← fit (n * u.length.2))

def addFraction? (d : Duration) (numerator denominator : Nat) (u : TimeUnit) :
    Option Duration := do
  let (seconds, nanos) ← u.fractionOf
  d.add? ((← fit (numerator * seconds)) / denominator) ((← fit (numerator * nanos)) / denominator)

structure Fraction where
  numerator : Nat := 0
  denominator : Nat := 1

inductive Reading where
  /-- Before a number; `total` is there once a number with its unit was read. -/
  | gap (total : Option Duration)
  | number (total : Duration) (n : Nat)
  | fraction (total : Duration) (n : Nat) (f : Fraction)
  | unit (total : Duration) (n : Nat) (f : Option Fraction) (name : List Char)

def isUnitChar (c : Char) : Bool := isLetter c || c == 'µ'

/-- The total with a number and its unit, whose name is given backwards. -/
def addUnit? (total : Duration) (n : Nat) (f : Option Fraction) (name : List Char) :
    Option Duration := do
  let u ← TimeUnit.ofName? (String.ofList name.reverse)
  let total ← total.addWhole? n u
  match f with
  | none => return total
  | some f => total.addFraction? f.numerator f.denominator u

def Reading.step (r : Reading) (c : Char) : Option Reading :=
  let digit := digitOf 10 c
  match r with
  | gap total =>
    match digit with
    | some d => some (number (total.getD ⟨0, 0⟩) d)
    | none => if isBlank c then some r else none
  | number total n =>
    match digit with
    | some d => (fit (n * 10 + d)).map (number total)
    | none =>
      if isBlank c then some r
      else if isUnitChar c then some (unit total n none [c])
      else if c == '.' then some (fraction total n {})
      else none
  | fraction total n f =>
    match digit with
    | some d => do
      return fraction total n ⟨← fit (f.numerator * 10 + d), ← fit (f.denominator * 10)⟩
    | none =>
      if isBlank c then some r
      else if isUnitChar c && f.denominator != 1 then some (unit total n (some f) [c])
      else none
  | unit total n f name =>
    match digit with
    | some d => do return number (← addUnit? total n f name) d
    | none =>
      if isBlank c then do return gap (some (← addUnit? total n f name))
      else if isUnitChar c then some (unit total n f (c :: name))
      else none

def Reading.finish : Reading → Option Duration
  | gap total => total
  | unit total n f name => addUnit? total n f name
  | _ => none

def ofText? (s : String) : Option Duration :=
  if s = "0" then some ⟨0, 0⟩
  else do
    let r ← s.toList.foldl (fun r c => r.bind (·.step c)) (some (Reading.gap none))
    r.finish

end Duration

end Gatehouse
