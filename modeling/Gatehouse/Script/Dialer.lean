import Gatehouse.Listen.Paced

/-!
# A scripted relay

A relay for a reconnecting listener, to try that out: what comes of each dial is laid down
beforehand, and the script tells what the sessions yield.  Time is counted in milliseconds.
-/

namespace Gatehouse.Script

open Listen

inductive Dial where
  | fails
  /-- It never ends. -/
  | hangs
  | session (address : ListenerAddress) (delay : Nat)

structure PlannedSession (κ : Type) where
  address : ListenerAddress
  /-- What it was given to yield before it was dialed. -/
  early : List (Accepted κ) := []
  closed : Bool := false

/-- A scripted relay. -/
structure Dialer (κ : Type) where
  /-- What comes of the dials to come; after these all fail. -/
  plan : List Dial
  /-- How long the listener rests between dials. -/
  backoff : Nat
  started : Nat := 0
  reported : List ListenerError := []
  sessions : List (PlannedSession κ)
  /-- How many sessions were opened. -/
  opened : Nat := 0
  /-- How many of them are gone. -/
  gone : Nat := 0
  /-- When the dial that has begun comes to a session. -/
  timer : Option Nat := none

namespace Dialer

variable {κ : Type}

def ofPlan (plan : List Dial) (backoff : Nat) : Dialer κ :=
  { plan, backoff
    sessions := plan.filterMap fun d => match d with
      | .session address _ => some { address }
      | _ => none }

/-- The error of the dial that was started last. -/
def dialError (d : Dialer κ) : ListenerError := .relay s!"dial {d.started} failed"

def nextSession (d : Dialer κ) : Session κ :=
  match d.sessions[d.opened]? with
  | some p => ⟨p.address, p.early⟩
  | none => ⟨.empty, []⟩

/-- What the relay does at something that the listener does, and what that leads to at once. -/
def react (now : Nat) (d : Dialer κ) : Reconnecting.Effect → Dialer κ × List (Reconnecting.Event κ)
  | .dialBegins =>
    let d := { d with started := d.started + 1, gone := d.opened, timer := none }
    match d.plan with
    | .session _ delay :: plan =>
      if delay = 0 then ({ d with plan }, [.dialed d.nextSession])
      else ({ d with plan, timer := some (now + delay) }, [])
    | .hangs :: plan => ({ d with plan }, [])
    | .fails :: plan => ({ d with plan }, [.dialFailed d.dialError])
    | [] => (d, [.dialFailed d.dialError])
  | .sessionOpened _ => ({ d with opened := d.opened + 1 }, [])
  | .sessionClosed _ =>
    ({ d with sessions := d.sessions.modify (d.opened - 1) ({ · with closed := true }) }, [])
  | .reported error => ({ d with reported := d.reported ++ [error] }, [])

/-- What happens when the timer is due. -/
def fire (d : Dialer κ) : Dialer κ × List (Reconnecting.Event κ) :=
  match d.timer with
  | some _ => ({ d with timer := none }, [.dialed d.nextSession])
  | none => (d, [])

/-- The task of the listener has ended. -/
def finish (d : Dialer κ) : Dialer κ := { d with gone := d.opened, timer := none }

/-- A session is given something to yield: whether it takes that, and what it leads to. -/
def push (d : Dialer κ) (session : Nat) (r : Accepted κ) :
    Bool × Dialer κ × List (Reconnecting.Event κ) :=
  if d.opened ≤ session then
    (decide (session < d.sessions.length),
      { d with sessions := d.sessions.modify session fun p => { p with early := p.early ++ [r] } },
      [])
  else if session < d.gone then (false, d, [])
  else (true, d, [.arrived r])

/-- The outcome of the first dial, on which everything else depends; it may take some time. -/
def dialFirst (d : Dialer κ) : Nat × Dialer κ × Option (Except ListenerError (Session κ)) :=
  let d := { d with started := 1 }
  match d.plan with
  | .session _ delay :: plan =>
    (delay, { d with plan, opened := 1 }, some (.ok d.nextSession))
  | .hangs :: plan => (0, { d with plan }, none)
  | .fails :: plan => (0, { d with plan }, some (.error d.dialError))
  | [] => (0, d, some (.error d.dialError))

end Dialer

end Gatehouse.Script
