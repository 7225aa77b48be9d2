import Gatehouse.Duration

/-!
# The health checker

A URL is probed at once and then whenever an interval has passed.  The checker gives up after five
probes in a row have failed; a success in between starts the count anew.  Its timer needs an
interval that is not zero.
-/

namespace Gatehouse.Health

/-- How many probes in a row may not fail. -/
def maxFailures : Nat := 5

inductive Outcome where
  | success
  | failure
deriving DecidableEq, Repr

inductive Checker where
  /-- The last probes failed, this many in a row. -/
  | running (failures : Nat)
  /-- It has given up. -/
  | unhealthy (failures : Nat)
deriving DecidableEq, Repr

def unhealthyMessage (failures : Nat) : String :=
  s!"Health check failed {failures} times in a row"

/-- Whether a timer can be made for an interval. -/
def timerAccepts (interval : Duration) : Bool := !interval.isZero

namespace Checker

/-- A checker that has not probed yet; there is none without a timer. -/
def start? (interval : Duration) : Option Checker :=
  if timerAccepts interval then some (running 0) else none

/-- The checker after a probe; one that has given up makes no more. -/
def step (c : Checker) (outcome : Outcome) : Checker :=
  match c, outcome with
  | running _, .success => running 0
  | running n, .failure => if maxFailures ≤ n + 1 then unhealthy (n + 1) else running (n + 1)
  | unhealthy n, _ => unhealthy n

def run (c : Checker) (outcomes : List Outcome) : Checker := outcomes.foldl step c

/-- Probes are made in a world, one after the other, as long as the checker runs and it is given
turns: the checker, and the world after them. -/
def watch {σ : Type} (probe : σ → Outcome × σ) : (turns : Nat) → Checker → σ → Checker × σ
  | 0, c, world => (c, world)
  | _ + 1, unhealthy n, world => (unhealthy n, world)
  | turns + 1, running n, world =>
    let (outcome, world) := probe world
    watch probe turns ((running n).step outcome) world

/-! ## Lemmas -/

theorem start?_eq_some {interval : Duration} (h : interval.isZero = false) :
    start? interval = some (running 0) := by
  rw [start?, timerAccepts, h]
  rfl

variable {σ : Type} (probe : σ → Outcome × σ)

/-- A checker that has given up makes no more probes. -/
theorem watch_unhealthy (turns n : Nat) (world : σ) :
    watch probe turns (unhealthy n) world = (unhealthy n, world) := by
  cases turns <;> rfl

theorem watch_add (turns more : Nat) (c : Checker) (world : σ) :
    watch probe (turns + more) c world =
      watch probe more (watch probe turns c world).1 (watch probe turns c world).2 := by
  induction turns generalizing c world with
  | zero => rw [Nat.zero_add, watch]
  | succ turns ih =>
    cases c with
    | running n =>
      rw [Nat.succ_add, watch, watch]
      exact ih _ _
    | unhealthy n => rw [watch_unhealthy, watch_unhealthy, watch_unhealthy]

end Checker

end Gatehouse.Health
