import Gatehouse.Listen.Listener

/-!
# Reconnecting listeners

A listener whose connections come through sessions with a relay.  One task owns the session: it
hands on the connections that the session yields, one at a time; when the session fails it closes
it, waits, and dials again until it has another.  At the call of close it stops wherever it is.

The events tell how far the task has come.  Errors are reported to whoever wants to know of them,
and `effects` tells what an event does outside of the listener.
-/

namespace Gatehouse.Listen

structure Session (κ : Type) where
  address : ListenerAddress
  /-- What it has for the next accepts; after an error it is of no more use. -/
  incoming : List (Accepted κ) := []

inductive ReconnectPhase (κ : Type) where
  | dialing
  /-- It waits for the session. -/
  | connected (session : Session κ)
  /-- It waits until a connection of the session has been taken over. -/
  | delivering (session : Session κ) (connection : κ)
  /-- It waits before the next dial. -/
  | resting
  | ended

structure Reconnecting (κ : Type) where
  phase : ReconnectPhase κ
  /-- The address of the session that was dialed last. -/
  address : ListenerAddress
  /-- A connection that waits for an accept. -/
  buffer : Option κ := none
  closed : Bool := false

namespace Reconnecting

variable {κ : Type}

inductive Event (κ : Type) where
  /-- The relay sends something through the session. -/
  | arrived (r : Accepted κ)
  | dialed (session : Session κ)
  | dialFailed (error : ListenerError)
  /-- An accept of the session returns. -/
  | yielded
  /-- The connection has been taken over. -/
  | delivered
  /-- The time before the next dial is over. -/
  | rested
  /-- The task has seen that the listener is closed. -/
  | stopped

/-- What an event does outside of the listener; a session is told by its address. -/
inductive Effect where
  | dialBegins
  | sessionOpened (address : ListenerAddress)
  | sessionClosed (address : ListenerAddress)
  | reported (error : ListenerError)

def start (session : Session κ) : Reconnecting κ :=
  ⟨.connected session, session.address, none, false⟩

def step? (s : Reconnecting κ) (e : Event κ) : Option (Reconnecting κ) :=
  match e, s.phase with
  | .arrived r, .connected session =>
    some { s with phase := .connected { session with incoming := session.incoming ++ [r] } }
  | .arrived r, .delivering session c =>
    some { s with phase := .delivering { session with incoming := session.incoming ++ [r] } c }
  | .dialed session, .dialing =>
    some { s with phase := .connected session, address := session.address }
  | .dialFailed _, .dialing => some { s with phase := .resting }
  | .yielded, .connected session =>
    match session.incoming with
    | [] => none
    | .ok c :: rest => some { s with phase := .delivering { session with incoming := rest } c }
    | .error _ :: _ => some { s with phase := .resting }
  | .delivered, .delivering session c =>
    match s.buffer with
    | some _ => none
    | none => some { s with phase := .connected session, buffer := some c }
  | .rested, .resting => some { s with phase := .dialing }
  | .stopped, .ended => none
  | .stopped, _ => if s.closed then some { s with phase := .ended } else none
  | _, _ => none

/-- What an event that can happen does outside of the listener. -/
def effects (s : Reconnecting κ) (e : Event κ) : List Effect :=
  match e, s.phase with
  | .dialed session, _ => [.sessionOpened session.address]
  | .dialFailed error, _ => [.reported error]
  | .yielded, .connected session =>
    match session.incoming with
    | .error error :: _ => [.reported error, .sessionClosed session.address]
    | _ => []
  | .rested, _ => [.dialBegins]
  | .stopped, .connected session => [.sessionClosed session.address]
  | .stopped, .delivering session _ => [.sessionClosed session.address]
  | _, _ => []

/-- What the task can do on its own. -/
def moves (s : Reconnecting κ) : List (Event κ) :=
  (if s.closed then [.stopped] else []) ++
    match s.phase with
    | .connected _ => [.yielded]
    | .delivering _ _ => [.delivered]
    | _ => []

/-- Whether the task waits before the next dial. -/
def isResting (s : Reconnecting κ) : Bool :=
  match s.phase with
  | .resting => true
  | _ => false

def hasEnded (s : Reconnecting κ) : Bool :=
  match s.phase with
  | .ended => true
  | _ => false

/-- What an accept may return: a connection that waits, or that there will be no more. -/
def answers (s : Reconnecting κ) : List (Accepted κ × Reconnecting κ) :=
  let ended := (.error .closed, s)
  (if s.closed then [ended] else []) ++
    match s.buffer with
    | some c => [(.ok c, { s with buffer := none })]
    | none => if s.hasEnded then [ended] else []

def close? (s : Reconnecting κ) : Option (Reconnecting κ) :=
  if s.closed then none else some { s with closed := true }

/-- The call that closes returns once the task has ended. -/
def closeResult? (s : Reconnecting κ) : Option CloseResult :=
  if s.closed && s.hasEnded then some (.ok ()) else none

end Reconnecting

instance {κ : Type} : Listener (Reconnecting κ) (Reconnecting.Event κ) κ where
  step? := Reconnecting.step?
  moves := Reconnecting.moves
  answers := Reconnecting.answers
  close? := Reconnecting.close?
  closeResult? := Reconnecting.closeResult?
  address := Reconnecting.address

end Gatehouse.Listen
