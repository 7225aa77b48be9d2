import Gatehouse.Inspect.Inspector
import Gatehouse.Proofs.Listen.Runs

/-!
# The rear of an inspector

Behind its connections an inspector is a listener, the pump, the errors that the pump sends, and how
far closing has come.  This part goes on by itself: what happens to the connections changes nothing
in it, and needs nothing from it.

    Inspector.rear              : the part of an inspector behind its connections
    Rear.Goes                   : a step of it
    Inspector.rear_goes         : every step of an inspector is one of these in its rear
    Inspector.isClosed_of_run?  : an inspector is closed from the call on
    Rear.Orderly                : the pump sends when an error of it waits, and then only
    Inspector.pump_eq_ended     : the pump ends with the listener behind
-/

namespace Gatehouse.Inspect

open Listen

variable {σ ε ρ : Type}

/-- The part of an inspector behind its connections. -/
structure Rear (σ : Type) where
  inner : σ
  pump : Relay
  errors : Channel Unit ListenerError
  closing : InspectorClosing

namespace Inspector

def rear (s : Inspector σ ρ) : Rear σ := ⟨s.inner, s.pump, s.errors, s.closing⟩

/-- What concerns connections that have been taken, and nothing else. -/
def isApart : Act (Event ε ρ) (Passed ρ) → Bool
  | .event (.peeked _) | .event (.timedOut _) | .event (.connected _ _) | .event (.parted _)
  | .event .admitted | .event (.stopped _) => true
  | .accepted (.ok _) | .abandoned => true
  | _ => false

theorem isClosed_eq_true {s : Inspector σ ρ} : s.isClosed = true ↔ s.closing ≠ .notBegun := by
  unfold isClosed
  cases s.closing <;> simp

theorem isClosed_eq_false {s : Inspector σ ρ} : s.isClosed = false ↔ s.closing = .notBegun := by
  unfold isClosed
  cases s.closing <;> simp

theorem closeResult?_eq_some {s : Inspector σ ρ} {r : CloseResult} :
    s.closeResult? = some r ↔ s.closing = .pump r ∧ s.pump = .ended := by
  unfold closeResult?
  cases s.closing <;> simp [and_comm]

end Inspector

section

variable [Listener σ ε (Tagged (Connection ρ))] [DecidableEq ρ]

inductive Rear.Goes (b : Rear σ) : Act (Inspector.Event ε ρ) (Passed ρ) → Rear σ → Prop where
  | apart {a : Act (Inspector.Event ε ρ) (Passed ρ)} (ha : Inspector.isApart a = true) : Goes b a b
  | ofInner {e : ε} {u : σ} (hu : Listener.step? b.inner e = some u) :
      Goes b (.event (.ofInner e)) { b with inner := u }
  | pumped {c : Tagged (Connection ρ)} {u : σ} (hpump : b.pump = .accepting)
      (hu : answered? b.inner (.ok c) = some u) :
      Goes b (.event (.yielded (.ok c))) { b with inner := u }
  | pumpEnded {u : σ} (hpump : b.pump = .accepting)
      (hu : answered? b.inner (.error .closed) = some u) :
      Goes b (.event (.yielded (.error .closed))) { b with inner := u, pump := .ended }
  | errorPumped {e : ListenerError} {u : σ} (he : e ≠ .closed) (hpump : b.pump = .accepting)
      (hu : answered? b.inner (.error e) = some u) :
      Goes b (.event (.yielded (.error e)))
        { b with inner := u, pump := .sending, errors := b.errors.offer () e }
  | errorAdmitted {c : Channel Unit ListenerError} (h : b.errors.admit? = some ((), c)) :
      Goes b (.event .errorAdmitted) { b with pump := .accepting, errors := c }
  | pumpStopped (hclosed : b.closing ≠ .notBegun) (hpump : b.pump ≠ .ended) :
      Goes b (.event .pumpStopped) { b with pump := .ended, errors := b.errors.withdraw () }
  | failed {e : ListenerError} {c : Channel Unit ListenerError}
      (h : b.errors.take? = some (e, c)) : Goes b (.accepted (.error e)) { b with errors := c }
  | told (hclosed : b.closing ≠ .notBegun) : Goes b (.accepted (.error .closed)) b
  | called {u : σ} (hopen : b.closing = .notBegun) (hu : Listener.close? b.inner = some u) :
      Goes b .closeCalled { b with inner := u, closing := .inner false }
  | calledInVain (hopen : b.closing = .notBegun) (hu : Listener.close? b.inner = none) :
      Goes b .closeCalled { b with closing := .inner true }
  | innerClosed {r : CloseResult} (hclosing : b.closing = .inner false)
      (hr : Listener.closeResult? b.inner = some r) :
      Goes b (.event .innerClosed) { b with closing := .pump r }
  | innerRefused (hclosing : b.closing = .inner true) :
      Goes b (.event .innerClosed) { b with closing := .pump (.error .alreadyClosed) }
  | refused (hclosed : b.closing ≠ .notBegun) : Goes b .closeRefused b
  | returned {r : CloseResult} (hclosing : b.closing = .pump r) (hpump : b.pump = .ended) :
      Goes b (.closeReturned r) b

/-- Of all steps only the call of close begins the closing. -/
theorem Rear.Goes.closing {b d : Rear σ} {a : Act (Inspector.Event ε ρ) (Passed ρ)}
    (h : b.Goes a d) : d.closing ≠ .notBegun ↔ b.closing ≠ .notBegun ∨ a = .closeCalled := by
  cases h with
  | @apart a ha =>
    have hcall : a ≠ .closeCalled := by
      rintro rfl
      cases ha
    simp [hcall]
  | called => simp
  | calledInVain => simp
  | innerClosed hclosing => simp [hclosing]
  | innerRefused hclosing => simp [hclosing]
  | _ => simp

namespace Inspector

/-! ## Lemmas -/

omit [Listener σ ε (Tagged (Connection ρ))] [DecidableEq ρ] in
theorem rear_judged {s t : Inspector σ ρ} {i : Nat} {c : Tagged (Connection ρ)}
    (h : s.judged i c = some t) : t.rear = s.rear := by
  unfold judged at h
  split at h <;> cases h <;> rfl

theorem rear_goes_of_pumped {s : Inspector σ ρ} {r : Accepted (Tagged (Connection ρ))} {u : σ}
    (hpump : s.pump = .accepting) (hu : answered? s.inner r = some u) :
    s.rear.Goes (.event (.yielded r)) ({ s with inner := u }.pumped r).rear := by
  unfold pumped
  split
  · exact .pumped hpump hu
  · exact .pumpEnded hpump hu
  · next e he => exact .errorPumped he hpump hu

/-- The tasks of connections leave the rear as it is. -/
theorem rear_eq_of_step? {s t : Inspector σ ρ} {e : Event ε ρ}
    (he : isApart (.event e : Act (Event ε ρ) (Passed ρ)) = true) (h : step? s e = some t) :
    t.rear = s.rear := by
  cases e with
  | peeked i =>
    obtain ⟨x, -, h⟩ := Option.bind_eq_some_iff.mp h
    split at h
    · exact rear_judged h
    · cases h
  | timedOut i =>
    simp only [step?] at h
    split at h
    · cases h
      rfl
    · cases h
  | connected i reached =>
    simp only [step?] at h
    split at h
    · cases h
      rfl
    · cases h
  | parted i =>
    simp only [step?] at h
    split at h
    · cases h
      rfl
    · cases h
  | admitted =>
    obtain ⟨_, -, hc⟩ := Option.bind_eq_some_iff.mp h
    cases hc
    rfl
  | stopped i =>
    have hend : ∀ u, (if s.isClosed then some (s.setFate i (.dropped .closing)) else none) =
        some u → u.rear = s.rear := by
      intro u hu
      split at hu
      · cases hu
        rfl
      · cases hu
    simp only [step?] at h
    split at h
    · exact hend t h
    · exact hend t h
    · exact hend t h
    · split at h
      · obtain ⟨u, hu, rfl⟩ := Option.map_eq_some_iff.mp h
        exact hend u hu
      · cases h
    · cases h
  | _ => cases he

theorem rear_goes_of_step? {s t : Inspector σ ρ} {e : Event ε ρ} (h : step? s e = some t) :
    s.rear.Goes (.event e) t.rear := by
  cases he : isApart (.event e : Act (Event ε ρ) (Passed ρ)) with
  | true =>
    rw [rear_eq_of_step? he h]
    exact .apart he
  | false =>
    cases e with
    | ofInner e =>
      obtain ⟨u, hu, rfl⟩ := Option.map_eq_some_iff.mp h
      exact .ofInner hu
    | yielded r =>
      simp only [step?] at h
      split at h
      · cases h
      · next hpump =>
        obtain ⟨u, hu, ht⟩ := Option.bind_eq_some_iff.mp h
        cases ht
        exact rear_goes_of_pumped (Decidable.not_not.mp hpump) hu
    | errorAdmitted =>
      obtain ⟨⟨_, c⟩, hc, ht⟩ := Option.bind_eq_some_iff.mp h
      cases ht
      exact .errorAdmitted hc
    | pumpStopped =>
      simp only [step?] at h
      split at h
      · next hguard =>
        cases h
        simp only [Bool.and_eq_true, decide_eq_true_eq, isClosed_eq_true] at hguard
        exact .pumpStopped hguard.1 hguard.2
      · cases h
    | innerClosed =>
      simp only [step?] at h
      split at h
      · next hclosing =>
        cases h
        exact .innerRefused hclosing
      · next hclosing =>
        obtain ⟨r, hr, rfl⟩ := Option.map_eq_some_iff.mp h
        exact .innerClosed hclosing hr
      · cases h
    | _ => cases he

theorem rear_goes_of_answered? {s t : Inspector σ ρ} {r : Accepted (Passed ρ)}
    (h : (r, t) ∈ answers s) : s.rear.Goes (.accepted r) t.rear := by
  simp only [answers, List.mem_append, Option.mem_toList, Option.map_eq_some_iff,
    Prod.mk.injEq] at h
  rcases h with (h | ⟨⟨⟨i, p⟩, c⟩, hc, rfl, rfl⟩) | ⟨⟨e, c⟩, hc, rfl, rfl⟩
  · split at h
    · next hclosed =>
      simp only [List.mem_singleton, Prod.mk.injEq] at h
      obtain ⟨rfl, rfl⟩ := h
      exact .told (isClosed_eq_true.mp hclosed)
    · cases h
  · exact .apart rfl
  · exact .failed hc

/-- **Whatever happens to an inspector is a step of its rear.** -/
theorem rear_goes {s t : Inspector σ ρ} {a : Act (Event ε ρ) (Passed ρ)}
    (h : perform? s a = some t) : s.rear.Goes a t.rear := by
  cases a with
  | event e => exact rear_goes_of_step? h
  | accepted r => exact rear_goes_of_answered? (mem_answers_of_answered? h)
  | abandoned =>
    cases h
    exact .apart rfl
  | closeCalled =>
    simp only [perform?, Listener.close?, close?] at h
    split at h
    · cases h
    · next hnot =>
      have hopen : s.closing = .notBegun := isClosed_eq_false.mp (Bool.eq_false_iff.mpr hnot)
      split at h
      · next u hu =>
        cases h
        exact .called hopen hu
      · next hu =>
        cases h
        exact .calledInVain hopen hu
  | closeRefused =>
    obtain rfl := eq_of_closeRefused h
    cases hclosed : s.isClosed with
    | true => exact .refused (isClosed_eq_true.mp hclosed)
    | false =>
      simp only [perform?, Listener.close?, close?, hclosed] at h
      cases hinner : Listener.close? s.inner <;> simp [hinner] at h
  | closeReturned r =>
    simp only [perform?] at h
    split at h
    · next hr =>
      cases h
      obtain ⟨hclosing, hpump⟩ := closeResult?_eq_some.mp hr
      exact .returned hclosing hpump
    · cases h

theorem isClosed_of_goes {s t : Inspector σ ρ} {a : Act (Event ε ρ) (Passed ρ)}
    (h : s.rear.Goes a t.rear) : t.isClosed = true ↔ s.isClosed = true ∨ a = .closeCalled := by
  rw [isClosed_eq_true, isClosed_eq_true]
  exact h.closing

theorem isClosed_of_perform? (s : Inspector σ ρ) (a : Act (Event ε ρ) (Passed ρ))
    (t : Inspector σ ρ) (h : perform? s a = some t) :
    t.isClosed = true ↔ s.isClosed = true ∨ a = .closeCalled := isClosed_of_goes (rear_goes h)

/-- **An inspector is closed from the call on.** -/
theorem isClosed_of_run? {s t : Inspector σ ρ} {acts : List (Act (Event ε ρ) (Passed ρ))}
    (h : run? s acts = some t) : t.isClosed = true ↔ s.isClosed = true ∨ .closeCalled ∈ acts :=
  run?_iff_mem isClosed_of_perform? h

end Inspector

/-! ## The pump -/

omit [Listener σ ε (Tagged (Connection ρ))] [DecidableEq ρ] in
/-- The pump holds one error while it sends, and none at other times. -/
def Rear.Orderly (b : Rear σ) : Prop :=
  b.errors.waiting.length = if b.pump = .sending then 1 else 0

theorem Rear.Goes.keeps_orderly {b d : Rear σ} {a : Act (Inspector.Event ε ρ) (Passed ρ)}
    (h : b.Goes a d) (hb : b.Orderly) : d.Orderly := by
  unfold Rear.Orderly at hb ⊢
  cases h with
  | pumpEnded hpump => simpa [hpump] using hb
  | errorPumped _ hpump => simpa [hpump, Channel.offer] using hb
  | errorAdmitted h =>
    obtain ⟨-, e, hw, -⟩ := Channel.admit?_eq_some.mp h
    by_cases hsending : b.pump = .sending
    · simpa [hw, hsending] using hb
    · simp [hw, hsending] at hb
  | pumpStopped => simp [Channel.withdraw]
  | failed h =>
    obtain ⟨-, rfl⟩ := Channel.take?_eq_some.mp h
    exact hb
  | _ => exact hb

/-- A pump that has ended does nothing more. -/
theorem Rear.Goes.keeps_ended {b d : Rear σ} {a : Act (Inspector.Event ε ρ) (Passed ρ)}
    (h : b.Goes a d) (hb : b.Orderly) (hended : b.pump = .ended) : d.pump = .ended := by
  cases h with
  | pumpEnded => rfl
  | errorPumped _ hpump => simp [hended] at hpump
  | errorAdmitted h =>
    obtain ⟨-, e, hw, -⟩ := Channel.admit?_eq_some.mp h
    simp [Rear.Orderly, hw, hended] at hb
  | pumpStopped => rfl
  | _ => exact hended

namespace Inspector

/-- **The pump ends with the listener behind.** -/
theorem pump_eq_ended {s t : Inspector σ ρ} {acts : List (Act (Event ε ρ) (Passed ρ))}
    (hs : s.rear.Orderly) (h : run? s acts = some t) : t.rear.Orderly ∧
      (.event (.yielded (.error .closed)) ∈ acts → t.pump = .ended) := by
  refine run?_induction (fun acts m => m.rear.Orderly ∧
    (.event (.yielded (.error .closed)) ∈ acts → m.pump = .ended)) ⟨hs, nofun⟩ ?_ h
  rintro acts m a u ⟨horderly, hended⟩ hu
  have hgoes := rear_goes hu
  refine ⟨hgoes.keeps_orderly horderly, fun hmem => ?_⟩
  rcases List.mem_append.mp hmem with hbefore | hnow
  · exact hgoes.keeps_ended horderly (hended hbefore)
  · obtain rfl := List.mem_singleton.mp hnow
    show u.rear.pump = .ended
    generalize u.rear = d at hgoes ⊢
    cases hgoes with
    | apart ha => cases ha
    | pumpEnded => rfl
    | errorPumped he => exact absurd rfl he

end Inspector

end

end Gatehouse.Inspect
