/-!
# Jobs with an owner

A job runs on its own for some time and then has a value, which it also sends to others.  Its
owner may wait for the value or let go of the job; one that is let go stops where it is, and has
done nothing unless it had already come to its end.
-/

namespace Gatehouse

/-- A job that takes some time and then has a value. -/
structure Job (α : Type) where
  duration : Nat
  value : α

inductive JobOwner where
  | waits
  /-- It lets go of the job after some time; at the time 0 the job has not begun to run. -/
  | letsGo (time : Nat)
deriving DecidableEq, Repr

structure JobOutcome (α : Type) where
  /-- What the owner got. -/
  result : Option α
  /-- What the job sent to others. -/
  sent : Option α
deriving DecidableEq, Repr

def Job.outcome {α : Type} (j : Job α) : JobOwner → JobOutcome α
  | .waits => ⟨some j.value, some j.value⟩
  | .letsGo time => ⟨none, if j.duration < time then some j.value else none⟩

end Gatehouse
