import Gatehouse.Proofs.Inspect.Fates
import Gatehouse.Proofs.Inspect.Rear
import Gatehouse.Proofs.Listen.Exhausted

/-!
# Inspectors that have nothing left

What is true of a multiplexer is true of an inspector as well: when its listener has ended, no task
of a connection runs, and its channels are empty, an accept waits until the inspector is closed.

    Inspector.isBusy       : whether the task of a connection runs
    Inspector.Spent        : no task runs, and nothing is left
    Exhausted              : nothing is left in a multiplexer, or in an inspector
    answers_of_exhausted   : a listener with nothing left waits to be closed
-/

namespace Gatehouse.Inspect

open Listen

variable {σ ε ρ : Type}

def Fate.isRunning : Fate ρ → Bool
  | .peeking | .connecting _ _ | .joined _ => true
  | _ => false

namespace Inspector

/-- Whether the task of the connection at a place runs. -/
def isBusy (s : Inspector σ ρ) (i : Nat) : Bool :=
  match s.fate? i with
  | some .waiting => s.connections.waiting.any (·.1 = i)
  | some f => f.isRunning
  | none => false

/-- No task runs, and the channels are empty. -/
structure Spent (s : Inspector σ ρ) : Prop where
  ended : s.pump = .ended
  idle : ∀ i, s.isBusy i = false
  connections : s.connections.toList = []
  errors : s.errors.toList = []

theorem Spent.isRunning {s : Inspector σ ρ} (hs : s.Spent) {i : Nat} {f : Fate ρ}
    (hf : s.fate? i = some f) : f.isRunning = false := by
  have hidle := hs.idle i
  rw [isBusy, hf] at hidle
  cases f <;> first | rfl | exact hidle

section

variable [Listener σ ε (Tagged (Connection ρ))] [DecidableEq ρ]

/-- No task of a connection goes on when none runs. -/
theorem Spent.keeps_connections {s t : Inspector σ ρ} {a : Act (Event ε ρ) (Passed ρ)}
    (hs : s.Spent) (h : perform? s a = some t) :
    t.taken = s.taken ∧ t.connections = s.connections := by
  cases a with
  | event e =>
    replace h : step? s e = some t := h
    cases e with
    | ofInner e =>
      obtain ⟨u, -, rfl⟩ := Option.map_eq_some_iff.mp h
      exact ⟨rfl, rfl⟩
    | yielded r => simp [step?, hs.ended] at h
    | errorAdmitted => simp [step?, Channel.admit?_eq_none hs.errors] at h
    | pumpStopped => simp [step?, hs.ended] at h
    | peeked i =>
      obtain ⟨x, hx, h⟩ := Option.bind_eq_some_iff.mp h
      split at h
      · next hpeeking =>
        cases hs.isRunning (i := i) (f := .peeking) (by simp [fate?, hx, hpeeking])
      · cases h
    | timedOut i =>
      simp only [step?] at h
      split at h
      · next hf => cases hs.isRunning hf
      · cases h
    | connected i reached =>
      simp only [step?] at h
      split at h
      · next hf => cases hs.isRunning hf
      · cases h
    | parted i =>
      simp only [step?] at h
      split at h
      · next hf => cases hs.isRunning hf
      · cases h
    | admitted => simp [step?, Channel.admit?_eq_none hs.connections] at h
    | stopped i =>
      obtain ⟨-, hwaiting⟩ := List.append_eq_nil_iff.mp hs.connections
      rw [List.map_eq_nil_iff] at hwaiting
      simp only [step?, hwaiting] at h
      split at h
      · next hf => cases hs.isRunning hf
      · next hf => cases hs.isRunning hf
      · next hf => cases hs.isRunning hf
      · cases h
      · cases h
    | innerClosed =>
      simp only [step?] at h
      split at h
      · cases h
        exact ⟨rfl, rfl⟩
      · obtain ⟨r, -, rfl⟩ := Option.map_eq_some_iff.mp h
        exact ⟨rfl, rfl⟩
      · cases h
  | accepted r =>
    have hmem := mem_answers_of_answered? h
    simp only [Listener.answers, answers, Channel.take?_eq_none hs.connections,
      Channel.take?_eq_none hs.errors, Option.map_none, Option.toList_none, List.append_nil] at hmem
    split at hmem
    · cases List.mem_singleton.mp hmem
      exact ⟨rfl, rfl⟩
    · cases hmem
  | abandoned =>
    cases h
    exact ⟨rfl, rfl⟩
  | closeCalled =>
    simp only [perform?, Listener.close?, close?] at h
    split at h
    · cases h
    · split at h <;> cases h <;> exact ⟨rfl, rfl⟩
  | closeRefused =>
    obtain rfl := eq_of_closeRefused h
    exact ⟨rfl, rfl⟩
  | closeReturned r =>
    obtain rfl := eq_of_closeReturned h
    exact ⟨rfl, rfl⟩

/-- Nothing comes to an inspector that has nothing left. -/
theorem Spent.keeps {s t : Inspector σ ρ} {a : Act (Event ε ρ) (Passed ρ)} (hs : s.Spent)
    (h : perform? s a = some t) : t.Spent := by
  obtain ⟨htaken, hconnections⟩ := hs.keeps_connections h
  have hrear : t.pump = .ended ∧ t.errors.toList = [] := by
    have hended : s.rear.pump = .ended := hs.ended
    have herrors : s.rear.errors.toList = [] := hs.errors
    have hgoes := rear_goes h
    show t.rear.pump = _ ∧ t.rear.errors.toList = _
    generalize s.rear = b at hgoes hended herrors
    generalize t.rear = d at hgoes ⊢
    cases hgoes with
    | pumped hpump => simp [hended] at hpump
    | pumpEnded hpump => simp [hended] at hpump
    | errorPumped _ hpump => simp [hended] at hpump
    | errorAdmitted hc => simp [Channel.admit?_eq_none herrors] at hc
    | pumpStopped _ hpump => exact absurd hended hpump
    | failed hc => simp [Channel.take?_eq_none herrors] at hc
    | _ => exact ⟨hended, herrors⟩
  refine ⟨hrear.1, fun i => ?_, by rw [hconnections, hs.connections], hrear.2⟩
  rw [← hs.idle i, isBusy, isBusy, fate?, fate?, htaken, hconnections]

omit [Listener σ ε (Tagged (Connection ρ))] [DecidableEq ρ] in
theorem Spent.answers_eq {s : Inspector σ ρ} (hs : s.Spent) :
    s.answers = if s.isClosed then [(.error .closed, s)] else [] := by
  simp [answers, Channel.take?_eq_none hs.connections, Channel.take?_eq_none hs.errors]

/-- When the listener behind has ended, no task of a connection runs and nothing is left in the
buffers, nothing is left at all. -/
theorem spent_of_run {inner : σ} {policy : Policy} {peek : ρ → Tls.Peeked ρ} {t : Inspector σ ρ}
    {acts : List (Act (Event ε ρ) (Passed ρ))}
    (h : run? ({ inner, policy, peek } : Inspector σ ρ) acts = some t)
    (hended : .event (.yielded (.error .closed)) ∈ acts) (hidle : ∀ i, t.isBusy i = false)
    (hconnections : t.connections.buffer = none) (herrors : t.errors.buffer = none) : t.Spent := by
  obtain ⟨horderly, hpump⟩ := pump_eq_ended (by simp [Rear.Orderly, rear]) h
  obtain ⟨-, -, -, js, htidy⟩ := tidy_of_run h
  -- Who waits for the channel has a task that runs.
  have hwaiting : t.connections.waiting = [] := by
    refine List.eq_nil_iff_forall_not_mem.mpr fun w hw => ?_
    have hplace : w.2.1 ∈ t.places :=
      List.mem_map.mpr ⟨w.2, List.mem_append_right _ (List.mem_map.mpr ⟨w, hw, rfl⟩), rfl⟩
    have hbusy : t.isBusy w.2.1 = true := by
      rw [isBusy, (htidy.waiting w.2.1).mp hplace]
      exact List.any_eq_true.mpr ⟨w, hw, by simpa using htidy.senders w hw⟩
    simp [hidle] at hbusy
  have hsending : t.errors.waiting = [] := by
    have hlength : t.errors.waiting.length = if t.pump = .sending then 1 else 0 := horderly
    simpa [hpump hended] using hlength
  exact ⟨hpump hended, hidle, by simp [Channel.toList, hconnections, hwaiting],
    by simp [Channel.toList, herrors, hsending]⟩

end

end Inspector

/-- After these acts nothing is left in a multiplexer or in an inspector: all sources have told that
they are closed, nothing is in the buffers, and no task of a connection runs. -/
inductive Exhausted :
    {σ ε κ : Type} → [Listener σ ε κ] → [DecidableEq κ] → List (Act ε κ) → σ → Prop where
  | mux {σ ε κ : Type} [Listener σ ε κ] [DecidableEq κ] {direct tunnel : Option σ} {s t : Mux σ κ}
      {acts : List (Act (Mux.Event ε κ) κ)} (hs : Mux.ofSources direct tunnel = .ok s)
      (h : run? s acts = some t)
      (hended : ∀ p, (s.side p).isSome = true → .event (.yielded p (.error .closed)) ∈ acts)
      (hconnections : t.connections.buffer = none) (herrors : t.errors.buffer = none) :
      Exhausted acts t
  | inspector {σ ε ρ : Type} [Listener σ ε (Tagged (Connection ρ))] [DecidableEq ρ] {inner : σ}
      {policy : Policy} {peek : ρ → Tls.Peeked ρ} {t : Inspector σ ρ}
      {acts : List (Act (Inspector.Event ε ρ) (Passed ρ))}
      (h : run? ({ inner, policy, peek } : Inspector σ ρ) acts = some t)
      (hended : .event (.yielded (.error .closed)) ∈ acts) (hidle : ∀ i, t.isBusy i = false)
      (hconnections : t.connections.buffer = none) (herrors : t.errors.buffer = none) :
      Exhausted acts t

/-- **A listener with nothing left waits to be closed.**  Whatever happens to it from there on, an
accept returns that the listener is closed if and only if close has been called on it.  Otherwise it
returns nothing at all. -/
theorem answers_of_exhausted {σ ε κ : Type} [Listener σ ε κ] [DecidableEq κ] {s t : σ}
    {before acts : List (Act ε κ)} (hs : Exhausted before s) (h : run? s acts = some t) :
    (Listener.answers t = [(.error .closed, t)] ↔ .closeCalled ∈ before ++ acts) ∧
    (Listener.answers t = [] ↔ .closeCalled ∉ before ++ acts) := by
  cases hs with
  | mux hm hbefore hended hconnections herrors =>
    have hspent := Mux.spent_of_run hm hbefore hended hconnections herrors
    have hclosed := Mux.isClosed_of_run? hbefore
    rw [Mux.isClosed_of_ofSources hm] at hclosed
    exact answers_iff_of_keeps (fun _ _ _ => Mux.Spent.keeps) Mux.isClosed_of_perform?
      (fun _ => Mux.Spent.answers_eq) hspent (by simpa using hclosed) h
  | inspector hbefore hended hidle hconnections herrors =>
    have hspent := Inspector.spent_of_run hbefore hended hidle hconnections herrors
    have hclosed := Inspector.isClosed_of_run? hbefore
    exact answers_iff_of_keeps (fun _ _ _ => Inspector.Spent.keeps) Inspector.isClosed_of_perform?
      (fun _ => Inspector.Spent.answers_eq) hspent (by simpa [Inspector.isClosed] using hclosed) h

/-- A multiplexer over one source, which has ended. -/
def lastSource : Mux (Source Nat) Nat where
  direct := some { source := { address := .empty, incoming := [.error .closed] } }
  tunnel := none

/-- An inspector before a source that ends after one silent visitor. -/
def lastVisitor : Inspector (Source Inspector.Visitor) ScriptedStream where
  inner :=
    { address := .empty, incoming := [.ok (Inspector.visitor 1 []), .error .closed] }
  policy := { privateMode := false, publicHosts := [] }
  peek := Tls.peek ScriptedStream.read Inspector.shortHello

/-- The visitor is given up after its source has ended. -/
def lastVisit :
    List (Act (Inspector.Event (Source.Event Inspector.Visitor) ScriptedStream)
      (Passed ScriptedStream)) :=
  [.event (.yielded (.ok (Inspector.visitor 1 []))), .event (.yielded (.error .closed)),
    .event (.timedOut 0)]

theorem lastSource_and_lastVisitor_wait :
    (∃ t, run? lastSource [.event (.yielded .direct (.error .closed))] = some t ∧
      Exhausted [.event (.yielded .direct (.error .closed))] t ∧ Listener.answers t = []) ∧
    ∃ t, run? lastVisitor lastVisit = some t ∧ Exhausted lastVisit t ∧ Listener.answers t = [] := by
  constructor
  · obtain ⟨t, ht, hconnections, herrors⟩ : ∃ t,
        run? lastSource [.event (.yielded .direct (.error .closed))] = some t ∧
        t.connections.buffer = none ∧ t.errors.buffer = none := ⟨_, rfl, rfl, rfl⟩
    have hsource : Mux.ofSources (some { address := .empty, incoming := [.error .closed] }) none =
        .ok lastSource := rfl
    have hexhausted : Exhausted [.event (.yielded .direct (.error .closed))] t := by
      refine .mux hsource ht (fun p => ?_) hconnections herrors
      cases p <;> simp [lastSource, Mux.side]
    obtain ⟨-, hnone⟩ := answers_of_exhausted hexhausted (run?_nil t)
    exact ⟨t, ht, hexhausted, hnone.mpr (by simp)⟩
  · obtain ⟨t, ht, hidle, hconnections, herrors⟩ : ∃ t, run? lastVisitor lastVisit = some t ∧
        (∀ i, t.isBusy i = false) ∧ t.connections.buffer = none ∧ t.errors.buffer = none :=
      ⟨_, rfl, fun i => by cases i <;> rfl, rfl, rfl⟩
    have hexhausted : Exhausted lastVisit t :=
      .inspector ht (by simp [lastVisit]) hidle hconnections herrors
    obtain ⟨-, hnone⟩ := answers_of_exhausted hexhausted (run?_nil t)
    exact ⟨t, ht, hexhausted, hnone.mpr (by simp [lastVisit])⟩

end Gatehouse.Inspect
