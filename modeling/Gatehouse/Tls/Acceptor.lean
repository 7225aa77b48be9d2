import Gatehouse.Tls.Record

/-!
# Acceptors

An acceptor is fed the octets of a client and, between two portions, tells what it makes of them.
It takes one octet at least of what it is offered, or fails.  It also tells how much a read that is
made for it may give; nothing can be read for an acceptor that is full.

The acceptor used here buffers what it is fed.  Its room is that of one record, until the first
record of a handshake is complete; then it is that of one message.
-/

namespace Gatehouse.Tls

/-- What an acceptor tells; `more` comes with the state in which it goes on. -/
inductive Judgement (σ : Type) where
  | more (state : σ)
  | hello (hello : Hello)
  | invalid

/-- An acceptor with states in `σ`. -/
structure Acceptor (σ : Type) where
  init : σ
  /-- Takes one octet of the data and the given number of others; `none` is a failure. -/
  take : σ → (first : UInt8) → (others : Octets) → Option (σ × Nat)
  judge : σ → Judgement σ
  /-- The size of the next read that is made for it. -/
  offer : σ → Nat

/-- The size of a read for an acceptor that has the room. -/
def readSize : Nat := 4096

def Acceptor.feed {σ : Type} (a : Acceptor σ) (s : σ) : Octets → Option σ
  | [] => some s
  | b :: bs =>
    match a.take s b bs with
    | none => none
    | some (s, n) => a.feed s (bs.drop n)
termination_by data => data.length
decreasing_by simp only [List.length_drop, List.length_cons]; omega

/-- The acceptor that makes of all it has been fed what a function says. -/
def Acceptor.ofFunction (f : Octets → Verdict) : Acceptor Octets where
  init := []
  take s b bs := some (s ++ b :: bs, bs.length)
  judge s :=
    match f s with
    | .incomplete => .more s
    | .hello h => .hello h
    | .invalid => .invalid
  offer _ := readSize

@[simp] theorem Acceptor.init_ofFunction (f : Octets → Verdict) : (ofFunction f).init = [] := rfl

theorem Acceptor.judge_ofFunction (f : Octets → Verdict) (s : Octets) :
    (ofFunction f).judge s = match f s with
      | .incomplete => .more s
      | .hello h => .hello h
      | .invalid => .invalid := rfl

/-- It takes all that it is fed. -/
@[simp] theorem Acceptor.feed_ofFunction (f : Octets → Verdict) (s bs : Octets) :
    (ofFunction f).feed s bs = some (s ++ bs) := by
  cases bs with
  | nil => rw [feed, List.append_nil]
  | cons b bs =>
    rw [feed]
    dsimp only [ofFunction]
    rw [List.drop_length, feed]

/-- What the buffering acceptor holds. -/
structure Buffered where
  octets : Octets := []
  /-- Whether the first record of a handshake was complete when last judged. -/
  joining : Bool := false

/-- The room for the first record, with its header. -/
def recordRoom : Nat := recordLimit + 5

def Buffered.room (s : Buffered) : Nat := if s.joining then maxMessage else recordRoom

/-- How many octets more are buffered. -/
def Buffered.free (s : Buffered) : Nat := s.room - s.octets.length

def helloAcceptor : Acceptor Buffered where
  init := {}
  take s b bs :=
    if s.free = 0 then none
    else
      let n := min (s.free - 1) bs.length
      some ({ s with octets := s.octets ++ b :: bs.take n }, n)
  judge s :=
    match verdict s.octets with
    | .incomplete => .more { s with joining := startsHandshake s.octets }
    | .hello h => .hello h
    | .invalid => .invalid
  offer s := min readSize s.free

end Gatehouse.Tls
