import Gatehouse.Inspect.Inspector
import Gatehouse.Listen.Source
import Gatehouse.Script.Glance
import Gatehouse.Stream.Splice
import Gatehouse.Tls.Acceptor

/-!
# Trying out the inspector

An inspector before a source that the script feeds, with one backend.  The script is at both ends of
connections that are joined to the backend.  After every step the tasks run until none can go on;
the clock only moves for accepts that wait and for sleeps.
-/

namespace Gatehouse.Script

open Listen Inspect

abbrev Visitor := Tagged (Connection ScriptedStream)

/-- An inspector before a source. -/
abbrev TriedInspector := Inspector (Source Visitor) ScriptedStream

/-- A connection that is joined to the backend.  The backend's end is a stream that the script adds
to; what the backend may read is what was written there. -/
abbrev Joint := Splice SeenStream ScriptedStream

/-- The connection that the backend has accepted. -/
structure BackendEnd where
  /-- The place of the connection. -/
  place : Nat
  /-- How many octets the backend has read. -/
  taken : Nat := 0

structure InspectorStage where
  inspector : TriedInspector
  /-- The address of the backend. -/
  backend : String
  now : Nat := 0
  /-- When the connections came, by place. -/
  arrivals : List Nat := []
  /-- Connections that were joined to the backend with their places, in the order in which they
  came. -/
  joined : List (Nat × Joint) := []
  accepted : Option BackendEnd := none

namespace InspectorStage

def start (policy : Policy) (source : Source Visitor) (backend : String) : InspectorStage where
  inspector := { inner := source, policy, peek := Tls.peek ScriptedStream.read Tls.helloAcceptor }
  backend

/-- The connection of a place, as it is joined to the backend. -/
def joint? (s : InspectorStage) (place : Nat) : Option Joint := s.joined.lookup place

/-- More reads and writes than joined connections take. -/
def manyCopies : Nat := 1000000

/-- Copies all that can be copied at a connection, after something was done to it. -/
def copy (s : InspectorStage) (place : Nat) (change : Joint → Joint) : InspectorStage :=
  let one (e : Nat × Joint) :=
    if e.1 = place then (e.1, (change e.2).settle seen ScriptedStream.duplex manyCopies) else e
  { s with joined := s.joined.map one }

/-- What the world does at the connection of a place. -/
def worldEvent? (s : InspectorStage) (place : Nat) :
    Option (Inspector.Event (Source.Event Visitor) ScriptedStream) :=
  match s.inspector.fate? place with
  | some (.connecting address _) => some (.connected place (address == s.backend))
  | some (.joined _) => if (s.joint? place).any Splice.isOver then some (.parted place) else none
  | _ => none

/-- What can happen now. -/
def moves (s : InspectorStage) : List (Inspector.Event (Source.Event Visitor) ScriptedStream) :=
  Listener.moves s.inspector ++ (List.range s.inspector.taken.length).filterMap s.worldEvent?

/-- A connection that was joined to the backend just now. -/
def freshJoint? (s : InspectorStage) (place : Nat) : Option (Nat × Joint) := do
  let t ← s.inspector.taken[place]?
  match t.fate, s.inspector.peek t.connection.connection.stream with
  | .joined _, .hello _ stream =>
    if (s.joint? place).isSome then none
    else some (place, { client := stream, backend := { segments := [], hangs := true } })
  | _, _ => none

/-- Notes when connections came and which were joined. -/
def note (s : InspectorStage) : InspectorStage :=
  let n := s.inspector.taken.length
  let fresh := (List.range n).filterMap s.freshJoint?
  let arrivals := s.arrivals ++ List.replicate (n - s.arrivals.length) s.now
  fresh.foldl (fun s e => s.copy e.1 id) { s with arrivals, joined := s.joined ++ fresh }

/-- Lets the tasks run until none can go on. -/
def settle : (fuel : Nat) → InspectorStage → InspectorStage
  | 0, s => s
  | fuel + 1, s =>
    match s.moves.findSome? (Listener.step? s.inspector) with
    | some i => settle fuel { s with inspector := i }.note
    | none => s

def patience : Nat := 10000

/-- Something happens. -/
def happen (s : InspectorStage)
    (e : Inspector.Event (Source.Event Visitor) ScriptedStream) : InspectorStage :=
  match Listener.step? s.inspector e with
  | some i => settle patience { s with inspector := i }.note
  | none => s

/-- The source is fed. -/
def feed (s : InspectorStage) (r : Accepted Visitor) : InspectorStage :=
  s.happen (.ofInner (.arrived r))

/-- The connections whose time for a hello is over at some time, with these times. -/
def timeouts (s : InspectorStage) (limit : Nat) : List (Nat × Nat) :=
  let due := s.arrivals.zipIdx.map fun (t, i) => (t + s.inspector.policy.helloTimeout, i)
  (due.filter fun d => d.1 ≤ limit).mergeSort fun a b => a.1 ≤ b.1

def sleep (s : InspectorStage) (time : Nat) : InspectorStage :=
  let s' := (s.timeouts (s.now + time)).foldl (fun s d => s.happen (.timedOut d.2)) s
  { s' with now := s.now + time }

/-- An accept that is given up after some time. -/
def accept (s : InspectorStage) (time : Nat) :
    Option (Accepted (Passed ScriptedStream)) × InspectorStage :=
  match next? s.inspector with
  | some (r, i) => (some r, settle patience { s with inspector := i })
  | none => (none, s.sleep time)

/-- The inspector is closed; `none` stands for a call that does not return. -/
def close (s : InspectorStage) : Option CloseResult × InspectorStage :=
  match Listener.close? s.inspector with
  | none => (some (.error .alreadyClosed), s)
  | some i =>
    let s := settle patience { s with inspector := i }
    (Listener.closeResult? s.inspector, s)

/-- Whether the connection of a place is gone. -/
def isDropped (s : InspectorStage) (place : Nat) : Bool :=
  match s.inspector.fate? place with
  | some (.dropped _) | some (.parted _) => true
  | _ => false

/-- Whether connections are gone, for all that the source was given: those that nobody has taken
are there. -/
def dropped (s : InspectorStage) : List Bool :=
  let left := s.inspector.inner.incoming.filter fun r => match r with
    | .ok _ => true
    | .error _ => false
  (List.range (s.inspector.taken.length + left.length)).map s.isDropped

/-- The backend accepts the first connection that was joined to it, unless it has one. -/
def backendEnd? (s : InspectorStage) : Option (BackendEnd × Joint) := do
  let b ← s.accepted.or (s.joined.head?.map ({ place := ·.1 }))
  return (b, ← s.joint? b.place)

/-- The backend reads octets: whether there were as many, and what they are. -/
def backendRead (s : InspectorStage) (n : Nat) : Bool × Octets × InspectorStage :=
  match s.backendEnd? with
  | none => (false, [], s)
  | some (b, joint) =>
    let bs := (joint.backend.written.drop b.taken).take n
    let accepted := some { b with taken := b.taken + bs.length }
    (decide (bs.length = n), bs, { s with accepted })

/-- The backend writes octets; whether it can. -/
def backendWrite (s : InspectorStage) (bs : Octets) : Bool × InspectorStage :=
  match s.backendEnd? with
  | some (b, joint) =>
    if !joint.backend.hangs || s.isDropped b.place then (false, s)
    else
      let sends (j : Joint) :=
        { j with backend.segments := j.backend.segments ++ [.data bs] }
      (true, { s with accepted := some b }.copy b.place sends)
  | none => (false, s)

def backendClose (s : InspectorStage) : InspectorStage :=
  match s.backendEnd? with
  | some (b, _) =>
    let closes (j : Joint) := { j with backend.hangs := false }
    settle patience ({ s with accepted := some b }.copy b.place closes)
  | none => s

/-- Whether the backend sees the end of its connection. -/
def backendEof (s : InspectorStage) : Bool :=
  s.backendEnd?.any fun (b, joint) => s.isDropped b.place || joint.up.isDone || joint.failed

/-- What was written to the connection of a place. -/
def writtenTo (s : InspectorStage) (place : Nat) : Octets :=
  ((s.joint? place).map (·.client.inner.written)).getD []

end InspectorStage

end Gatehouse.Script
