import Gatehouse.Certificate.Delay

/-!
# Trying out the delay of certificates

Uses of certificates one after the other or at the same time, and times between them, with a clock
that counts milliseconds and moves on to the end of every step.
-/

namespace Gatehouse.Script

open Certificate

structure DelayTrial where
  delayer : Delayer := .start 0

namespace DelayTrial

def now (t : DelayTrial) : Nat := t.delayer.now

/-- The clock moves on to a time, and whatever is due until then wakes when it is. -/
def moveTo (d : Delayer) (time : Nat) : Delayer :=
  let due := d.uses.zipIdx.filter fun u => u.1.returned.isNone && u.1.due ≤ time
  let order := due.mergeSort fun a b => a.1.due ≤ b.1.due
  let d := order.foldl (fun d u => (d.run? [.passed (u.1.due - d.now), .woke u.2]).getD d) d
  (d.step? (.passed (time - d.now))).getD d

def sleep (t : DelayTrial) (time : Nat) : DelayTrial := ⟨moveTo t.delayer (t.now + time)⟩

/-- Several uses begin, each after a time of its own: how long each waits, the time when all are
over, and the trial at that time. -/
def useTogether (t : DelayTrial) (wall : WallTime) (uses : List (Nat × Timing)) :
    List Nat × Nat × DelayTrial :=
  let order := uses.zipIdx.mergeSort fun a b => a.1.1 ≤ b.1.1
  let delayer := order.foldl
    (fun d u => ((moveTo d (t.now + u.1.1)).step? (.arrived wall u.1.2)).getD d) t.delayer
  let waits := (delayer.uses.drop t.delayer.uses.length).map (·.hold.wait)
  let done := order.zip waits
  let total := (done.map fun (u, w) => u.1.1 + w).foldl max 0
  ((done.mergeSort fun a b => a.1.2 ≤ b.1.2).map (·.2), total, ⟨moveTo delayer (t.now + total)⟩)

/-- One use begins: how long it waits, and the trial when it is over. -/
def use (t : DelayTrial) (wall : WallTime) (timing : Timing) : Nat × DelayTrial :=
  let (_, total, t) := t.useTogether wall [(0, timing)]
  (total, t)

end DelayTrial

end Gatehouse.Script
