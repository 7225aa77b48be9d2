import Gatehouse.Listen.Listener

/-!
# Sources

A source yields what arrives from outside in the order in which it arrived: connections, and errors
of accepting them.  A socket that listens is a source.  While it is closed an accept returns that;
if something has arrived as well, either may come first.
-/

namespace Gatehouse.Listen

/-- How a source answers to being closed. -/
inductive CloseRule where
  /-- The first call closes it, and later ones are refused. -/
  | once
  /-- Every call closes it and returns this. -/
  | always (result : CloseResult)

structure Source (κ : Type) where
  address : ListenerAddress
  closeRule : CloseRule := .once
  /-- What has arrived and was not yet accepted. -/
  incoming : List (Accepted κ) := []
  closed : Bool := false

namespace Source

variable {κ : Type}

/-- What may happen to a source: something arrives. -/
inductive Event (κ : Type) where
  | arrived (r : Accepted κ)
deriving DecidableEq

def answers (s : Source κ) : List (Accepted κ × Source κ) :=
  (if s.closed then [(.error .closed, s)] else []) ++
    match s.incoming with
    | [] => []
    | r :: rest => [(r, { s with incoming := rest })]

def close? (s : Source κ) : Option (Source κ) :=
  match s.closeRule with
  | .once => if s.closed then none else some { s with closed := true }
  | .always _ => some { s with closed := true }

/-- Closing takes no time. -/
def closeResult? (s : Source κ) : Option CloseResult :=
  if s.closed then
    match s.closeRule with
    | .once => some (.ok ())
    | .always r => some r
  else none

end Source

instance {κ : Type} : Listener (Source κ) (Source.Event κ) κ where
  step?
    | s, .arrived r => some { s with incoming := s.incoming ++ [r] }
  moves _ := []
  answers := Source.answers
  close? := Source.close?
  closeResult? := Source.closeResult?
  address := Source.address

end Gatehouse.Listen
