/-!
# Dates

Days of the Gregorian calendar, counted from the first of January 1970.
-/

namespace Gatehouse.Certificate

def isLeapYear (y : Nat) : Bool := y % 4 == 0 && (y % 100 != 0 || y % 400 == 0)

def daysInMonth (y m : Nat) : Nat :=
  if m = 2 then if isLeapYear y then 29 else 28
  else if [4, 6, 9, 11].contains m then 30 else 31

/-- The days of all years before this one, counted from the year 0. -/
def daysBeforeYear (y : Nat) : Nat :=
  if y = 0 then 0
  else 365 * y + ((y - 1) / 4 + 1) - ((y - 1) / 100 + 1) + ((y - 1) / 400 + 1)

/-- The days of all months of the year before this one. -/
def daysBeforeMonth (y m : Nat) : Nat :=
  ((List.range (m - 1)).map fun i => daysInMonth y (i + 1)).foldl (· + ·) 0

def dayNumber? (y m d : Nat) : Option Int :=
  if 1 ≤ m && m ≤ 12 && 1 ≤ d && d ≤ daysInMonth y m then
    some (Int.ofNat (daysBeforeYear y + daysBeforeMonth y m + (d - 1)) -
      Int.ofNat (daysBeforeYear 1970))
  else none

end Gatehouse.Certificate
