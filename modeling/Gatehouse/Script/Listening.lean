import Gatehouse.Listen.Mux
import Gatehouse.Listen.Source
import Gatehouse.Script.Dialer

/-!
# Trying out listeners

A listener on a stage: the script pushes connections at one side and accepts them at the other,
while a clock moves from one thing that is waited for to the next.  After every step the tasks run
until none can go on.  Accepts wait in line; one that nobody listens to any more keeps its place.
-/

namespace Gatehouse.Script

open Listen

/-- Connections are told apart by their peers. -/
abbrev Peer := Net.SocketAddress

/-- A source, or a reconnecting listener. -/
abbrev Origin := TaggedListener (Source Peer ⊕ Paced Peer)

abbrev OriginEvent := Source.Event Peer ⊕ Paced.Event Peer

/-- A listener that is tried out: one origin, or a multiplexer. -/
abbrev Tried := Origin ⊕ Mux Origin (Tagged Peer)

abbrev TriedEvent := OriginEvent ⊕ Mux.Event OriginEvent (Tagged Peer)

def Tried.origin? (t : Tried) (p : Provenance) : Option Origin :=
  match t with
  | .inl o => if o.provenance = p then some o else none
  | .inr m => (m.side p).map (·.source)

/-- Something happens to the origin of one side. -/
def Tried.eventOf (t : Tried) (p : Provenance) (e : OriginEvent) : TriedEvent :=
  match t with
  | .inl _ => .inl e
  | .inr _ => .inr (.ofSource p e)

/-- Where an event happens to a reconnecting listener, and what it does there. -/
def Tried.effects (t : Tried) (e : TriedEvent) : List (Provenance × Reconnecting.Effect) :=
  let reconnecting (o : Option Origin) (e : Reconnecting.Event Peer) :=
    match o with
    | some ⟨.inr r, p⟩ => (r.listener.effects e).map ((p, ·))
    | _ => []
  match t, e with
  | .inl o, .inl (.inr (.task e)) => reconnecting (some o) e
  | .inr _, .inr (.ofSource p (.inr (.task e))) => reconnecting (t.origin? p) e
  | _, _ => []

def Tried.reconnecting? (t : Tried) (p : Provenance) : Option (Paced Peer) :=
  match t.origin? p with
  | some ⟨.inr r, _⟩ => some r
  | _ => none

def Tried.hasEnded (t : Tried) (p : Provenance) : Bool :=
  (t.reconnecting? p).any fun r => r.listener.hasEnded

/-- Time passes on one side. -/
def Tried.pass (t : Tried) (p : Provenance) (time : Nat) : Tried :=
  if (t.reconnecting? p).isSome then
    (Listener.step? t (t.eventOf p (.inr (.passed time)))).getD t
  else t

structure Stage where
  listener : Tried
  direct : Option (Dialer Peer) := none
  tunnel : Option (Dialer Peer) := none
  now : Nat := 0
  /-- The accepts that wait, by number. -/
  line : List Nat := []
  accepts : Nat := 0
  results : List (Nat × Accepted (Tagged Peer)) := []

namespace Stage

/-- An origin that rests as long as its relay has it. -/
def pace (o : Origin × Option (Dialer Peer)) : Origin :=
  match o with
  | (⟨.inr r, p⟩, some d) => ⟨.inr { r with backoff := d.backoff }, p⟩
  | (o, _) => o

/-- A stage with one origin, or with a multiplexer over those that there are; each comes with its
relay, if it has one. -/
def ofOrigins (merged : Bool) (direct tunnel : Option (Origin × Option (Dialer Peer))) :
    Except ListenerError Stage := do
  let listener ← match merged, direct.map pace, tunnel.map pace with
    | false, some o, _ | false, none, some o => pure (.inl o)
    | _, direct, tunnel => .inr <$> Mux.ofSources direct tunnel
  return { listener, direct := direct.bind (·.2), tunnel := tunnel.bind (·.2) }

def dialer (s : Stage) : Provenance → Option (Dialer Peer)
  | .direct => s.direct
  | .tunnel => s.tunnel

def withDialer (s : Stage) (p : Provenance) (d : Dialer Peer) : Stage :=
  match p with
  | .direct => { s with direct := some d }
  | .tunnel => { s with tunnel := some d }

/-- What the scripted relays do. -/
def react (s : Stage) :
    List (Provenance × Reconnecting.Effect) → Stage × List TriedEvent
  | [] => (s, [])
  | (p, effect) :: r =>
    match s.dialer p with
    | none => s.react r
    | some d =>
      let (d, es) := d.react s.now effect
      let (s, more) := (s.withDialer p d).react r
      (s, es.map (fun e => s.listener.eventOf p (.inr (.task e))) ++ more)

/-- A side whose task has ended has no more use for its relay. -/
def finish (s : Stage) (p : Provenance) : Stage :=
  match s.dialer p with
  | some d => if s.listener.hasEnded p then s.withDialer p d.finish else s
  | none => s

/-- Something happens; the answer tells what follows at once. -/
def step? (s : Stage) (e : TriedEvent) : Option (Stage × List TriedEvent) :=
  (Listener.step? s.listener e).map fun t =>
    let (s, es) := { s with listener := t }.react (s.listener.effects e)
    ((s.finish .direct).finish .tunnel, es)

/-- Lets all tasks run, starting with the given events. -/
def settle : (fuel : Nat) → Stage → List TriedEvent → Stage
  | 0, s, _ => s
  | fuel + 1, s, e :: es =>
    match s.step? e with
    | some (s, more) => settle fuel s (es ++ more)
    | none => settle fuel s es
  | fuel + 1, s, [] =>
    match (Listener.moves s.listener).findSome? s.step? with
    | some (s, more) => settle fuel s more
    | none => s

/-- The most events between two moves of the clock. -/
def patience : Nat := 100000

/-- The accepts in line are served, the first one first. -/
def serve : (waiting : List Nat) → Stage → Stage
  | [], s => { s with line := [] }
  | n :: line, s =>
    match next? s.listener with
    | some (r, t) =>
      serve line (settle patience { s with listener := t, results := s.results ++ [(n, r)] } [])
    | none => { s with line := n :: line }

/-- Lets all tasks run and serves the line. -/
def goOn (s : Stage) (es : List TriedEvent) : Stage :=
  let s := settle patience s es
  s.serve s.line

def happen (s : Stage) (p : Provenance) (es : List OriginEvent) : Stage :=
  s.goOn (es.map (s.listener.eventOf p))

/-- The time for which a side waits: that its task has rested, or that its relay is dialed. -/
def due? (s : Stage) (p : Provenance) : Option Nat :=
  ((s.listener.reconnecting? p).bind (·.restEnds?)).or ((s.dialer p).bind (·.timer))

/-- The side that is waited for next, and until when. -/
def nextTimer? (s : Stage) : Option (Nat × Provenance) :=
  match s.due? .direct, s.due? .tunnel with
  | some a, some b => if a ≤ b then some (a, .direct) else some (b, .tunnel)
  | some a, none => some (a, .direct)
  | none, some b => some (b, .tunnel)
  | none, none => none

/-- The clock has come to the time for which a side waits. -/
def fire (s : Stage) (p : Provenance) : Stage :=
  match s.dialer p with
  | none => s
  | some d =>
    let (d, es) := d.fire
    (s.withDialer p d).happen p (es.map (.inr <| .task ·))

/-- The clock moves on to a time, on both sides. -/
def clock (s : Stage) (time : Nat) : Stage :=
  let passed := time - s.now
  { s with now := s.now + passed
           listener := (s.listener.pass .direct passed).pass .tunnel passed }

/-- The clock moves on to a time, or until something is true. -/
def advance (stop : Stage → Bool) (target : Nat) : (fuel : Nat) → Stage → Stage
  | 0, s => s
  | fuel + 1, s =>
    if stop s then s
    else match s.nextTimer? with
      | some (t, p) =>
        if t ≤ target then advance stop target fuel ((s.clock t).fire p)
        else s.clock target
      | none => s.clock target

/-- Nothing is done for some time. -/
def sleep (s : Stage) (time : Nat) : Stage := s.advance (fun _ => false) (s.now + time) patience

/-- An accept gets in line; its number comes with the stage. -/
def beginAccept (s : Stage) : Nat × Stage :=
  let n := s.accepts
  (n, { s with accepts := n + 1, line := s.line ++ [n] }.goOn [])

def result? (s : Stage) (n : Nat) : Option (Accepted (Tagged Peer)) := s.results.lookup n

/-- An accept that is given up after some time. -/
def accept (s : Stage) (time : Nat) : Option (Accepted (Tagged Peer)) × Stage :=
  let (n, s) := s.beginAccept
  let s := s.advance (fun s => (s.result? n).isSome) (s.now + time) patience
  (s.result? n, { s with line := s.line.filter (· ≠ n) })

/-- Something is given to the origin of a side, and for some of them to one of its sessions;
whether it is taken. -/
def push (s : Stage) (p : Provenance) (session : Nat) (r : Accepted Peer) : Bool × Stage :=
  match s.listener.origin? p, s.dialer p with
  | some ⟨.inl _, _⟩, _ => (true, s.happen p [.inl (.arrived r)])
  | some ⟨.inr _, _⟩, some d =>
    let (taken, d, es) := d.push session r
    (taken, (s.withDialer p d).happen p (es.map (.inr <| .task ·)))
  | _, _ => (false, s)

/-- The listener is closed; `none` stands for a call that does not return. -/
def close (s : Stage) : Option CloseResult × Stage :=
  match Listener.close? s.listener with
  | none => (some (.error .alreadyClosed), s)
  | some t =>
    let s := { s with listener := t }.goOn []
    (Listener.closeResult? s.listener, s)

end Stage

end Gatehouse.Script
