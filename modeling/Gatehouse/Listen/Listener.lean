import Gatehouse.Listen.Address
import Gatehouse.Listen.Error

/-!
# Listeners

A listener is a machine with two ends.  At one end its tasks and the world outside act on it by
events.  At the other it is asked for connections, as often as one likes, and to close.  Where more
than one thing can happen next, each of them may: an accept may return any of `answers`, and any of
`moves` may come first.

    Accepted         : what an accept returns
    Listener         : a type of machines that listen
    Act, run?        : what happens to a listener, and its state after a list of that
-/

namespace Gatehouse.Listen

abbrev Accepted (κ : Type) := Except ListenerError κ

abbrev CloseResult := Except ListenerError Unit

/-- Results can be compared. -/
instance {κ : Type} [DecidableEq κ] : DecidableEq (Accepted κ)
  | .ok a, .ok b => if h : a = b then isTrue (h ▸ rfl) else isFalse fun e => h (by injection e)
  | .error a, .error b =>
    if h : a = b then isTrue (h ▸ rfl) else isFalse fun e => h (by injection e)
  | .ok _, .error _ => isFalse nofun
  | .error _, .ok _ => isFalse nofun

/-- Machines of type `σ` that listen for connections of type `κ`, moved by events of type `ε`. -/
class Listener (σ : Type) (ε κ : outParam Type) where
  /-- The state after an event, if it can happen. -/
  step? : σ → ε → Option σ
  /-- The events that need nothing from outside, in the order in which the tasks get to run. -/
  moves : σ → List ε
  /-- What an accept may return, each with the state afterwards. -/
  answers : σ → List (Accepted κ × σ)
  /-- Closing begins, unless that was done before. -/
  close? : σ → Option σ
  /-- What the call that closes returns, as soon as it does. -/
  closeResult? : σ → Option CloseResult
  /-- Where the listener is reached. -/
  address : σ → ListenerAddress

inductive Act (ε κ : Type) where
  | event (e : ε)
  | accepted (r : Accepted κ)
  /-- An accept is given up while it waits; it has taken nothing. -/
  | abandoned
  | closeCalled
  /-- A call that comes after another one. -/
  | closeRefused
  | closeReturned (r : CloseResult)
deriving DecidableEq

section

variable {σ ε κ : Type} [Listener σ ε κ]

/-- The state after an accept has returned a result, if it may. -/
def answered? [DecidableEq κ] (s : σ) (r : Accepted κ) : Option σ :=
  ((Listener.answers s).find? fun a => decide (a.1 = r)).map (·.2)

/-- The state after something has happened, if it can. -/
def perform? [DecidableEq κ] (s : σ) : Act ε κ → Option σ
  | .event e => Listener.step? s e
  | .accepted r => answered? s r
  | .abandoned => some s
  | .closeCalled => Listener.close? s
  | .closeRefused => if (Listener.close? s).isNone then some s else none
  | .closeReturned r => if Listener.closeResult? s = some r then some s else none

/-- The state after a list of things has happened, if they can in this order. -/
def run? [DecidableEq κ] (s : σ) (acts : List (Act ε κ)) : Option σ := acts.foldlM perform? s

theorem mem_answers_of_answered? [DecidableEq κ] {s t : σ} {r : Accepted κ}
    (h : answered? s r = some t) : (r, t) ∈ Listener.answers s := by
  unfold answered? at h
  obtain ⟨⟨r', t'⟩, hfind, rfl⟩ := Option.map_eq_some_iff.mp h
  obtain rfl : r' = r := by simpa using List.find?_some hfind
  exact List.mem_of_find?_eq_some hfind

/-- A call that is refused changes nothing. -/
theorem eq_of_closeRefused [DecidableEq κ] {s t : σ}
    (h : perform? s (.closeRefused : Act ε κ) = some t) : s = t := by
  simp only [perform?] at h
  split at h
  · exact Option.some.inj h
  · cases h

/-- Nor does a call that returns. -/
theorem eq_of_closeReturned [DecidableEq κ] {s t : σ} {r : CloseResult}
    (h : perform? s (.closeReturned r : Act ε κ) = some t) : s = t := by
  simp only [perform?] at h
  split at h
  · exact Option.some.inj h
  · cases h

@[simp] theorem run?_nil [DecidableEq κ] (s : σ) : run? s ([] : List (Act ε κ)) = some s := rfl

theorem run?_cons [DecidableEq κ] {s t : σ} {a : Act ε κ} {acts : List (Act ε κ)} :
    run? s (a :: acts) = some t ↔ ∃ m, perform? s a = some m ∧ run? m acts = some t := by
  unfold run?
  rw [List.foldlM_cons]
  exact Option.bind_eq_some_iff

theorem run?_append [DecidableEq κ] {s t : σ} {acts acts' : List (Act ε κ)} :
    run? s (acts ++ acts') = some t ↔ ∃ m, run? s acts = some m ∧ run? m acts' = some t := by
  unfold run?
  rw [List.foldlM_append]
  exact Option.bind_eq_some_iff

/-- One of the results that an accept may return, with the state afterwards: what has come goes
before the news that no more will. -/
def next? (s : σ) : Option (Accepted κ × σ) :=
  let answers := Listener.answers s
  (answers.find? fun a => match a.1 with
    | .error .closed => false
    | _ => true).or answers.head?

end

/-! ## Sums

A listener of one of two kinds is a listener. -/

instance {σ τ ε δ κ : Type} [Listener σ ε κ] [Listener τ δ κ] : Listener (σ ⊕ τ) (ε ⊕ δ) κ where
  step?
    | .inl s, .inl e => (Listener.step? s e).map .inl
    | .inr s, .inr e => (Listener.step? s e).map .inr
    | _, _ => none
  moves
    | .inl s => (Listener.moves s).map .inl
    | .inr s => (Listener.moves s).map .inr
  answers
    | .inl s => (Listener.answers s).map fun (r, s) => (r, .inl s)
    | .inr s => (Listener.answers s).map fun (r, s) => (r, .inr s)
  close?
    | .inl s => (Listener.close? s).map .inl
    | .inr s => (Listener.close? s).map .inr
  closeResult?
    | .inl s => Listener.closeResult? s
    | .inr s => Listener.closeResult? s
  address
    | .inl s => Listener.address s
    | .inr s => Listener.address s

end Gatehouse.Listen
