import Gatehouse.Inspect.Policy
import Gatehouse.Listen.Channel
import Gatehouse.Listen.Mux
import Gatehouse.Tls.Peek

/-!
# The inspector

A listener that looks at the Client Hello of each connection of another listener.  One task, the
pump, takes the connections; each of them then has a task of its own that peeks at the hello, so
that a slow client holds up nobody, and does what the policy decides.  Connections that are passed
are returned by accepts, with streams that begin at their first octet.

    Fate                   : what has become of a connection
    Inspector.judge        : what a connection comes to by its own octets
    Inspector.step?        : what tasks, clients and backends do, one event at a time
-/

namespace Gatehouse.Inspect

open Listen

structure Connection (ρ : Type) where
  peer : Net.SocketAddress
  stream : ρ
deriving DecidableEq, Repr

inductive DropCause where
  /-- There is no hello. -/
  | failed (error : Tls.HelloError)
  | timedOut
  | rejected
  /-- The inspector was closed. -/
  | closing
deriving DecidableEq, Repr

inductive Fate (ρ : Type) where
  /-- It is read up to the end of its hello. -/
  | peeking
  /-- A backend is being connected to. -/
  | connecting (address : String) (stream : Tls.PeekedStream ρ)
  /-- It is joined to a backend. -/
  | joined (address : String)
  /-- It was joined to a backend until one of the two ended, or the backend was not reached. -/
  | parted (address : String)
  /-- It has been passed and waits for an accept. -/
  | waiting
  | delivered
  | dropped (cause : DropCause)

/-- A connection that the inspector has taken, and its fate. -/
structure Inspected (ρ : Type) where
  connection : Tagged (Connection ρ)
  fate : Fate ρ

abbrev Passed (ρ : Type) := Tagged (Connection (Tls.PeekedStream ρ))

inductive InspectorClosing where
  | notBegun
  /-- The listener behind is being closed, or refuses to be. -/
  | inner (refused : Bool)
  /-- It has answered. -/
  | pump (result : CloseResult)

/-- An inspector before a listener of type `σ`, whose connections have streams of type `ρ`. -/
structure Inspector (σ ρ : Type) where
  inner : σ
  policy : Policy
  /-- How hellos are peeked at. -/
  peek : ρ → Tls.Peeked ρ
  /-- The task that takes connections; it sends errors only. -/
  pump : Relay := .accepting
  /-- All connections that were taken, in the order in which they came. -/
  taken : List (Inspected ρ) := []
  /-- Passed connections, each with its place among those taken. -/
  connections : Channel Nat (Nat × Passed ρ) := {}
  errors : Channel Unit ListenerError := {}
  closing : InspectorClosing := .notBegun

namespace Inspector

variable {σ ε ρ : Type}

/-- What may happen to an inspector; connections are named by their places. -/
inductive Event (ε ρ : Type) where
  /-- Something happens to the listener behind. -/
  | ofInner (e : ε)
  /-- An accept of the listener behind returns to the pump. -/
  | yielded (r : Accepted (Tagged (Connection ρ)))
  | errorAdmitted
  /-- The pump has seen that the inspector is closed. -/
  | pumpStopped
  /-- The hello of a connection is complete, or there will be none. -/
  | peeked (i : Nat)
  /-- The time for a hello is over. -/
  | timedOut (i : Nat)
  /-- The backend of a connection has been reached, or cannot be. -/
  | connected (i : Nat) (reached : Bool)
  /-- The connection or its backend has ended. -/
  | parted (i : Nat)
  /-- The first connection that waits gets into its channel. -/
  | admitted
  /-- The task of a connection has seen that the inspector is closed. -/
  | stopped (i : Nat)
  /-- The listener behind has answered to being closed. -/
  | innerClosed

inductive Judged (ρ : Type) where
  /-- The hello is not complete and the client is silent. -/
  | undecided
  | failed (error : Tls.HelloError)
  | rejected
  | forwarded (address : String) (stream : Tls.PeekedStream ρ)
  | passed (connection : Passed ρ)

/-- What a connection comes to by its own octets. -/
def judge (policy : Policy) (peek : ρ → Tls.Peeked ρ) (c : Tagged (Connection ρ)) : Judged ρ :=
  match peek c.connection.stream with
  | .pending => .undecided
  | .failed error => .failed error
  | .hello hello stream =>
    match policy.decide c.provenance hello with
    | .reject => .rejected
    | .forward address => .forwarded address stream
    | .pass => .passed ⟨⟨c.connection.peer, stream⟩, c.provenance⟩

def isClosed (s : Inspector σ ρ) : Bool :=
  match s.closing with
  | .notBegun => false
  | _ => true

def connection? (s : Inspector σ ρ) (i : Nat) : Option (Tagged (Connection ρ)) :=
  s.taken[i]?.map (·.connection)

/-- What has become of the connection at a place. -/
def fate? (s : Inspector σ ρ) (i : Nat) : Option (Fate ρ) := s.taken[i]?.map (·.fate)

def setFate (s : Inspector σ ρ) (i : Nat) (f : Fate ρ) : Inspector σ ρ :=
  { s with taken := s.taken.modify i ({ · with fate := f }) }

theorem connection?_setFate (s : Inspector σ ρ) (i j : Nat) (f : Fate ρ) :
    (s.setFate i f).connection? j = s.connection? j := by
  unfold connection? setFate
  rw [List.getElem?_modify]
  cases s.taken[j]? with
  | none => rfl
  | some x => by_cases h : i = j <;> simp [h]

theorem fate?_setFate {s : Inspector σ ρ} {i : Nat} {f : Fate ρ} (h : s.fate? i = some f)
    (j : Nat) (g : Fate ρ) : (s.setFate i g).fate? j = if j = i then some g else s.fate? j := by
  unfold fate? at h ⊢
  unfold setFate
  rw [List.getElem?_modify]
  by_cases hj : j = i
  · subst hj
    cases hx : s.taken[j]? with
    | none => simp [hx] at h
    | some x => simp
  · cases s.taken[j]? <;> simp [hj, Ne.symm hj]

theorem map_connection_setFate (s : Inspector σ ρ) (i : Nat) (f : Fate ρ) :
    (s.setFate i f).taken.map (·.connection) = s.taken.map (·.connection) := by
  refine List.ext_getElem? ?_
  intro j
  rw [List.getElem?_map, List.getElem?_map]
  exact connection?_setFate s i j f

/-- The pump has got something. -/
def pumped (s : Inspector σ ρ) : Accepted (Tagged (Connection ρ)) → Inspector σ ρ
  | .ok c => { s with taken := s.taken ++ [⟨c, .peeking⟩] }
  | .error .closed => { s with pump := .ended }
  | .error e => { s with pump := .sending, errors := s.errors.offer () e }

def judged (s : Inspector σ ρ) (i : Nat) (c : Tagged (Connection ρ)) : Option (Inspector σ ρ) :=
  match judge s.policy s.peek c with
  | .undecided => none
  | .failed error => some (s.setFate i (.dropped (.failed error)))
  | .rejected => some (s.setFate i (.dropped .rejected))
  | .forwarded address stream => some (s.setFate i (.connecting address stream))
  | .passed p => some { s.setFate i .waiting with connections := s.connections.offer i (i, p) }

section

variable [Listener σ ε (Tagged (Connection ρ))]

def step? [DecidableEq ρ] (s : Inspector σ ρ) (e : Event ε ρ) : Option (Inspector σ ρ) :=
  match e with
  | .ofInner e => (Listener.step? s.inner e).map ({ s with inner := · })
  | .yielded r => do
    if s.pump ≠ .accepting then none
    let t ← answered? s.inner r
    return { s with inner := t }.pumped r
  | .errorAdmitted => do
    let (_, c) ← s.errors.admit?
    return { s with pump := .accepting, errors := c }
  | .pumpStopped =>
    if s.isClosed && s.pump ≠ .ended then
      some { s with pump := .ended, errors := s.errors.withdraw () }
    else none
  | .peeked i => do
    let t ← s.taken[i]?
    match t.fate with
    | .peeking => s.judged i t.connection
    | _ => none
  | .timedOut i =>
    match s.fate? i with
    | some .peeking => some (s.setFate i (.dropped .timedOut))
    | _ => none
  | .connected i reached =>
    match s.fate? i with
    | some (.connecting address _) =>
      some (s.setFate i (if reached then .joined address else .parted address))
    | _ => none
  | .parted i =>
    match s.fate? i with
    | some (.joined address) => some (s.setFate i (.parted address))
    | _ => none
  | .admitted => do
    let (_, c) ← s.connections.admit?
    return { s with connections := c }
  | .stopped i =>
    let dropped := if s.isClosed then some (s.setFate i (.dropped .closing)) else none
    match s.fate? i with
    | some .peeking | some (.connecting _ _) | some (.joined _) => dropped
    | some .waiting =>
      if s.connections.waiting.any (·.1 = i) then
        dropped.map fun s => { s with connections := s.connections.withdraw i }
      else none
    | _ => none
  | .innerClosed =>
    match s.closing with
    | .inner true => some { s with closing := .pump (.error .alreadyClosed) }
    | .inner false => (Listener.closeResult? s.inner).map fun r => { s with closing := .pump r }
    | _ => none

/-- What the tasks can do on their own. -/
def moves (s : Inspector σ ρ) : List (Event ε ρ) :=
  let places := List.range s.taken.length
  (if s.isClosed then .pumpStopped :: places.map .stopped else []) ++
    (Listener.moves s.inner).map .ofInner ++
    (Listener.answers s.inner).map (fun a => .yielded a.1) ++
    places.map .peeked ++ [.admitted, .errorAdmitted, .innerClosed]

/-- What an accept may return.  An inspector whose listener has ended has nothing to return until
it is closed. -/
def answers (s : Inspector σ ρ) : List (Accepted (Passed ρ) × Inspector σ ρ) :=
  (if s.isClosed then [(.error .closed, s)] else []) ++
    (s.connections.take?.map fun ((i, c), rest) =>
      (.ok c, { s.setFate i .delivered with connections := rest })).toList ++
    (s.errors.take?.map fun (e, rest) => (.error e, { s with errors := rest })).toList

def close? (s : Inspector σ ρ) : Option (Inspector σ ρ) :=
  if s.isClosed then none
  else match Listener.close? s.inner with
    | some t => some { s with inner := t, closing := .inner false }
    | none => some { s with closing := .inner true }

/-- The call that closes returns once the pump has ended. -/
def closeResult? (s : Inspector σ ρ) : Option CloseResult :=
  match s.closing with
  | .pump r => if s.pump = .ended then some r else none
  | _ => none

end

end Inspector

instance {σ ε ρ : Type} [Listener σ ε (Tagged (Connection ρ))] [DecidableEq ρ] :
    Listener (Inspector σ ρ) (Inspector.Event ε ρ) (Passed ρ) where
  step? := Inspector.step?
  moves := Inspector.moves
  answers := Inspector.answers
  close? := Inspector.close?
  closeResult? := Inspector.closeResult?
  address s := Listener.address s.inner

end Gatehouse.Inspect
