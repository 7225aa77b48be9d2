import Gatehouse.Certificate.Timing

/-!
# Delaying fresh certificates

Other servers that share the certificates may not have a new one yet, and a client that comes to
them right after it came here would get another.  So the first uses of a fresh certificate are
delayed by two seconds: those that come before the first of them is over, and those within three
seconds after that.  Certificates are told apart by their serial number.

Time comes as an input: milliseconds of a clock that never goes back, and the moment of the day.
A use arrives, and if it is held it wakes two seconds later; arriving and waking are the two
steps of `DelayState`.  A `Delayer` takes any number of uses at the same time, on a clock of its
own.  Expired certificates are forgotten at most once an hour.
-/

namespace Gatehouse.Certificate

/-- How long a use is held, in milliseconds. -/
def firstUseDelay : Nat := 2000

/-- How long after the first use others are held too. -/
def repeatWindow : Nat := 3000

/-- How often expired certificates are forgotten. -/
def cleanupInterval : Nat := 60 * 60 * 1000

/-- What is known of a certificate that was used while fresh. -/
structure DelayEntry where
  /-- When its first use was over. -/
  firstSeen : Nat
  expire : WallTime
deriving DecidableEq, Repr

/-- The certificates that were used while fresh, by serial number. -/
structure DelayState where
  entries : List (String × DelayEntry) := []
  nextCleanup : Nat
deriving DecidableEq, Repr

inductive Hold where
  | none
  /-- It is held, and is noted when it is over. -/
  | firstUse
  | again
deriving DecidableEq, Repr

namespace DelayState

def start (now : Nat) : DelayState := { nextCleanup := now + cleanupInterval }

def find? (s : DelayState) (serial : String) : Option DelayEntry := s.entries.lookup serial

/-- Forgets expired certificates, if it is time. -/
def sweep (s : DelayState) (now : Nat) (wall : WallTime) : DelayState :=
  if now < s.nextCleanup then s
  else { entries := s.entries.filter fun e => wall < e.2.expire,
         nextCleanup := now + cleanupInterval }

def arrive (s : DelayState) (now : Nat) (wall : WallTime) (t : Timing) : DelayState × Hold :=
  if !t.isFresh wall then (s, .none)
  else
    let s := s.sweep now wall
    let hold := match s.find? t.serial with
      | none => .firstUse
      | some e => if now < e.firstSeen + repeatWindow then .again else .none
    (s, hold)

/-- Notes what is known of a certificate, in place of what was noted before. -/
def note (s : DelayState) (serial : String) (e : DelayEntry) : DelayState :=
  { s with entries := s.entries.filter (·.1 ≠ serial) ++ [(serial, e)] }

/-- A first use is over; an earlier one that is over already stays noted. -/
def wake (s : DelayState) (now : Nat) (t : Timing) : DelayState :=
  match s.find? t.serial with
  | some _ => s
  | none => s.note t.serial ⟨now, t.notAfter⟩

/-- The serial numbers that are noted, in ascending order. -/
def tracked (s : DelayState) : List String := (s.entries.map (·.1)).mergeSort fun a b => a ≤ b

end DelayState

def Hold.wait : Hold → Nat
  | none => 0
  | firstUse => firstUseDelay
  | again => firstUseDelay

/-! ## Many uses at the same time -/

structure Use where
  arrival : Nat
  /-- The moment of the day at which it arrived. -/
  wall : WallTime
  timing : Timing
  hold : Hold
  /-- When it was over. -/
  returned : Option Nat
deriving DecidableEq, Repr

def Use.due (u : Use) : Nat := u.arrival + u.hold.wait

/-- A delayer on its clock, with the uses that have arrived. -/
structure Delayer where
  now : Nat
  state : DelayState
  uses : List Use := []
deriving DecidableEq, Repr

namespace Delayer

inductive Event where
  | arrived (wall : WallTime) (timing : Timing)
  /-- A use that is held wakes; uses are told by the order in which they arrived. -/
  | woke (n : Nat)
  /-- Time passes. -/
  | passed (time : Nat)

def start (now : Nat) : Delayer := ⟨now, .start now, []⟩

/-- A use arrives; if it is not held it is over. -/
def arrive (d : Delayer) (wall : WallTime) (timing : Timing) : Delayer :=
  let (state, hold) := d.state.arrive d.now wall timing
  let returned := if hold = .none then some d.now else none
  { d with state, uses := d.uses ++ [⟨d.now, wall, timing, hold, returned⟩] }

def wake (d : Delayer) (n : Nat) (u : Use) : Delayer where
  now := d.now
  state := if u.hold = .firstUse then d.state.wake d.now u.timing else d.state
  uses := d.uses.set n { u with returned := some d.now }

/-- Whether a use is held no longer than until a time. -/
def lets (time : Nat) (u : Use) : Bool := u.returned.isSome || time ≤ u.due

/-- The state after an event, if it can happen.  Uses wake exactly when they are due: not before,
and no time passes until they have. -/
def step? (d : Delayer) : Event → Option Delayer
  | .arrived wall timing => some (d.arrive wall timing)
  | .woke n => do
    let u ← d.uses[n]?
    if u.returned.isNone && u.due ≤ d.now then some (d.wake n u) else none
  | .passed time =>
    if d.uses.all (lets (d.now + time)) then some { d with now := d.now + time } else none

/-- The state after a list of events, if they can happen in this order. -/
def run? (d : Delayer) (events : List Event) : Option Delayer := events.foldlM step? d

end Delayer

end Gatehouse.Certificate
