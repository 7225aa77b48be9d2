import Gatehouse.Listen.Channel
import Gatehouse.Listen.Tagged

/-!
# Multiplexed listeners

A listener that joins a direct source and a source behind the tunnel; one of the two may be
missing.  A relay task for each source hands on what the source yields, connections through one
channel and errors through another, in the order in which it came; it stops when its source ends,
and at the close of the listener.  An accept takes what comes first.

Closing closes the direct source, then the other, whether or not the first can be closed, and then
waits for both relay tasks.
-/

namespace Gatehouse.Listen

/-- Where a relay task is. -/
inductive Relay where
  /-- It waits for its source. -/
  | accepting
  /-- It waits for room in a channel. -/
  | sending
  | ended
deriving DecidableEq, Repr

structure Fed (σ : Type) where
  source : σ
  relay : Relay := .accepting

inductive Closing where
  | notBegun
  /-- The direct source is being closed, or refuses to be. -/
  | direct (refused : Bool)
  /-- The source behind the tunnel is; the other has answered. -/
  | tunnel (direct : CloseResult) (refused : Bool)
  /-- Both have answered. -/
  | relays (result : CloseResult)

/-- A multiplexed listener over sources of type `σ`. -/
structure Mux (σ κ : Type) where
  direct : Option (Fed σ)
  tunnel : Option (Fed σ)
  connections : Channel Provenance κ := {}
  errors : Channel Provenance ListenerError := {}
  closing : Closing := .notBegun

namespace Mux

variable {σ ε κ : Type}

inductive Event (ε κ : Type) where
  /-- Something happens to a source. -/
  | ofSource (side : Provenance) (e : ε)
  /-- An accept of a source returns to its relay task. -/
  | yielded (side : Provenance) (r : Accepted κ)
  /-- The first connection that waits gets into its channel. -/
  | admitted
  /-- The first error that waits gets into its channel. -/
  | errorAdmitted
  /-- A relay task has seen that the listener is closed. -/
  | stopped (side : Provenance)
  /-- The source that is being closed has answered. -/
  | sourceClosed

/-- A listener over the given sources, of which there has to be one. -/
def ofSources (direct tunnel : Option σ) : Except ListenerError (Mux σ κ) :=
  match direct, tunnel with
  | none, none => .error .noSource
  | _, _ => .ok { direct := direct.map ({ source := · }), tunnel := tunnel.map ({ source := · }) }

def side (s : Mux σ κ) : Provenance → Option (Fed σ)
  | .direct => s.direct
  | .tunnel => s.tunnel

def withSide (s : Mux σ κ) (p : Provenance) (f : Fed σ) : Mux σ κ :=
  match p with
  | .direct => { s with direct := some f }
  | .tunnel => { s with tunnel := some f }

@[simp] theorem connections_withSide (s : Mux σ κ) (p : Provenance) (f : Fed σ) :
    (s.withSide p f).connections = s.connections := by
  cases p <;> rfl

@[simp] theorem errors_withSide (s : Mux σ κ) (p : Provenance) (f : Fed σ) :
    (s.withSide p f).errors = s.errors := by
  cases p <;> rfl

@[simp] theorem closing_withSide (s : Mux σ κ) (p : Provenance) (f : Fed σ) :
    (s.withSide p f).closing = s.closing := by
  cases p <;> rfl

theorem side_withSide (s : Mux σ κ) (p q : Provenance) (f : Fed σ) :
    (s.withSide p f).side q = if q = p then some f else s.side q := by
  cases p <;> cases q <;> rfl

def isClosed (s : Mux σ κ) : Bool :=
  match s.closing with
  | .notBegun => false
  | _ => true

def setRelay (s : Mux σ κ) (p : Provenance) (r : Relay) : Mux σ κ :=
  match s.side p with
  | none => s
  | some f => s.withSide p { f with relay := r }

@[simp] theorem connections_setRelay (s : Mux σ κ) (p : Provenance) (r : Relay) :
    (s.setRelay p r).connections = s.connections := by
  unfold setRelay
  split <;> simp

@[simp] theorem errors_setRelay (s : Mux σ κ) (p : Provenance) (r : Relay) :
    (s.setRelay p r).errors = s.errors := by
  unfold setRelay
  split <;> simp

@[simp] theorem closing_setRelay (s : Mux σ κ) (p : Provenance) (r : Relay) :
    (s.setRelay p r).closing = s.closing := by
  unfold setRelay
  split <;> simp

theorem side_setRelay (s : Mux σ κ) (p q : Provenance) (r : Relay) :
    (s.setRelay p r).side q =
      (s.side q).map fun f => if q = p then { f with relay := r } else f := by
  unfold setRelay
  by_cases hq : q = p
  · subst hq
    split
    · next h => simp [h]
    · next f h => simp [h, side_withSide]
  · split
    · simp [hq]
    · simp [side_withSide, hq]

def relaysEnded (s : Mux σ κ) : Bool :=
  [s.direct, s.tunnel].all fun f => f.all fun f => f.relay = .ended

/-- The result of closing both sources: the first error there is. -/
def joinResults (direct tunnel : CloseResult) : CloseResult :=
  match direct with
  | .error e => .error e
  | .ok () => tunnel

section

variable [Listener σ ε κ]

/-- Begins to close the source of a side; tells whether it refuses. -/
def closeSide (s : Mux σ κ) (p : Provenance) : Mux σ κ × Bool :=
  match s.side p with
  | none => (s, false)
  | some f =>
    match Listener.close? f.source with
    | some t => (s.withSide p { f with source := t }, false)
    | none => (s, true)

/-- What closing the source of a side has come to. -/
def sideResult? (s : Mux σ κ) (p : Provenance) (refused : Bool) : Option CloseResult :=
  if refused then some (.error .alreadyClosed)
  else match s.side p with
    | none => some (.ok ())
    | some f => Listener.closeResult? f.source

/-- A relay task has got something from its source. -/
def relayed (s : Mux σ κ) (p : Provenance) (r : Accepted κ) : Mux σ κ :=
  match r with
  | .ok c => { s.setRelay p .sending with connections := s.connections.offer p c }
  | .error .closed => s.setRelay p .ended
  | .error e => { s.setRelay p .sending with errors := s.errors.offer p e }

@[simp] theorem closing_relayed (s : Mux σ κ) (p : Provenance) (r : Accepted κ) :
    (s.relayed p r).closing = s.closing := by
  unfold relayed
  split <;> simp

def step? [DecidableEq κ] (s : Mux σ κ) (e : Event ε κ) : Option (Mux σ κ) :=
  match e with
  | .ofSource p e => do
    let f ← s.side p
    let t ← Listener.step? f.source e
    return s.withSide p { f with source := t }
  | .yielded p r => do
    let f ← s.side p
    if f.relay ≠ .accepting then none
    let t ← answered? f.source r
    return (s.withSide p { f with source := t }).relayed p r
  | .admitted => do
    let (p, c) ← s.connections.admit?
    return { s.setRelay p .accepting with connections := c }
  | .errorAdmitted => do
    let (p, c) ← s.errors.admit?
    return { s.setRelay p .accepting with errors := c }
  | .stopped p => do
    let f ← s.side p
    if !s.isClosed || f.relay = .ended then none
    return { s.setRelay p .ended with
      connections := s.connections.withdraw p
      errors := s.errors.withdraw p }
  | .sourceClosed =>
    match s.closing with
    | .direct refused => do
      let r ← s.sideResult? .direct refused
      let (s, refused) := s.closeSide .tunnel
      return { s with closing := .tunnel r refused }
    | .tunnel direct refused => do
      let r ← s.sideResult? .tunnel refused
      return { s with closing := .relays (joinResults direct r) }
    | _ => none

/-- What the relay task of a side, its source and closing can do on their own. -/
def sideMoves (s : Mux σ κ) (p : Provenance) : List (Event ε κ) :=
  match s.side p with
  | none => []
  | some f =>
    (if s.isClosed then [.stopped p] else []) ++ (Listener.moves f.source).map (.ofSource p) ++
      (Listener.answers f.source).map fun a => .yielded p a.1

/-- What the tasks can do on their own. -/
def moves (s : Mux σ κ) : List (Event ε κ) :=
  s.sideMoves .direct ++ s.sideMoves .tunnel ++ [.admitted, .errorAdmitted, .sourceClosed]

/-- What an accept may return.  A listener whose sources have all ended has nothing to return
until it is closed. -/
def answers (s : Mux σ κ) : List (Accepted κ × Mux σ κ) :=
  (if s.isClosed then [(.error .closed, s)] else []) ++
    (s.connections.take?.map fun (c, rest) => (.ok c, { s with connections := rest })).toList ++
    (s.errors.take?.map fun (e, rest) => (.error e, { s with errors := rest })).toList

def close? (s : Mux σ κ) : Option (Mux σ κ) :=
  if s.isClosed then none
  else
    let (s, refused) := s.closeSide .direct
    some { s with closing := .direct refused }

/-- The call that closes returns once the relay tasks have ended. -/
def closeResult? (s : Mux σ κ) : Option CloseResult :=
  match s.closing with
  | .relays r => if s.relaysEnded then some r else none
  | _ => none

def address (s : Mux σ κ) : ListenerAddress :=
  .composite (((s.direct.map fun f => (Provenance.direct, Listener.address f.source)).toList) ++
    (s.tunnel.map fun f => (Provenance.tunnel, Listener.address f.source)).toList)

end

end Mux

instance {σ ε κ : Type} [Listener σ ε κ] [DecidableEq κ] :
    Listener (Mux σ κ) (Mux.Event ε κ) κ where
  step? := Mux.step?
  moves := Mux.moves
  answers := Mux.answers
  close? := Mux.close?
  closeResult? := Mux.closeResult?
  address := Mux.address

end Gatehouse.Listen
