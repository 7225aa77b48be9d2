import Gatehouse.Listen.Reconnecting

/-!
# Reconnecting listeners on a clock

After every failure the task of a reconnecting listener rests for some time before it dials again.
Here the listener has a clock, and keeps a record of what its task has done and when.

At each rest the task looks first whether the listener is closed.  A rest that begins after the
call of close therefore ends before any time has passed; during one that began earlier the call may
come just when the time is over, and then the task may go on as well as stop.
-/

namespace Gatehouse.Listen

/-- A reconnecting listener on a clock that counts milliseconds. -/
structure Paced (κ : Type) where
  listener : Reconnecting κ
  /-- How long the task rests. -/
  backoff : Nat
  now : Nat := 0
  /-- When the task began to rest. -/
  restsSince : Nat := 0
  /-- Whether the listener was closed by then. -/
  restsClosed : Bool := false
  /-- What the task has done, and when. -/
  record : List (Nat × Reconnecting.Effect) := []

namespace Paced

variable {κ : Type}

/-- What may happen to a reconnecting listener on a clock. -/
inductive Event (κ : Type) where
  | task (e : Reconnecting.Event κ)
  /-- Time passes. -/
  | passed (time : Nat)

/-- A listener with its first session, whose task rests for this time. -/
def startWith (session : Session κ) (backoff : Nat) : Paced κ where
  listener := .start session
  backoff
  record := [(0, .sessionOpened session.address)]

/-- A listener with its first session, whose task rests for a second. -/
def start (session : Session κ) : Paced κ := startWith session 1000

/-- When the task has rested enough, if it rests. -/
def restEnds? (s : Paced κ) : Option Nat :=
  if s.listener.isResting then some (s.restsSince + s.backoff) else none

/-- Whether the task has begun to rest in a closed listener: it stops before any time passes. -/
def isHurried (s : Paced κ) : Bool := s.listener.isResting && s.restsClosed

/-- Whether it is too early for an event. -/
def isEarly (s : Paced κ) : Reconnecting.Event κ → Bool
  | .rested => s.now < s.restsSince + s.backoff
  | _ => false

/-- The state after an event that has led the listener to another state. -/
def after (s : Paced κ) (e : Reconnecting.Event κ) (t : Reconnecting κ) : Paced κ where
  listener := t
  backoff := s.backoff
  now := s.now
  restsSince := if t.isResting then s.now else s.restsSince
  restsClosed := if t.isResting then t.closed else s.restsClosed
  record := s.record ++ (s.listener.effects e).map (s.now, ·)

def step? (s : Paced κ) : Event κ → Option (Paced κ)
  | .task e => if s.isEarly e then none else (s.listener.step? e).map (s.after e)
  | .passed time => if s.isHurried then none else some { s with now := s.now + time }

/-- What the task can do on its own, now that it is this time. -/
def moves (s : Paced κ) : List (Event κ) :=
  s.listener.moves.map .task ++
    if s.listener.isResting && !s.isEarly .rested then [.task .rested] else []

end Paced

instance {κ : Type} : Listener (Paced κ) (Paced.Event κ) κ where
  step? := Paced.step?
  moves := Paced.moves
  answers s := s.listener.answers.map fun (r, t) => (r, { s with listener := t })
  close? s := s.listener.close?.map ({ s with listener := · })
  closeResult? s := s.listener.closeResult?
  address s := s.listener.address

end Gatehouse.Listen
