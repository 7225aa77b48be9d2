import Gatehouse.Listen.Reconnecting
import Gatehouse.Listen.Source
import Gatehouse.Proofs.Inspect.Rear
import Gatehouse.Proofs.Listen.Sources
import Gatehouse.Proofs.Listen.Steps

/-!
# Accepts after the call of close

Once close has been called on a listener, an accept may return that it is closed.  It has to choose
between this and what waits to be accepted, though, and nothing makes it prefer the former: whatever
waits may still come out.  This is told here for all listeners that are built from those there are.

    outcomes              : what an accept may return
    Built                 : the listeners there are, with what waits in them
    ShutBy                : what a listener keeps to after the call of close
    outcomes_after_close  : what accepts may return after it
-/

namespace Gatehouse

namespace Listen

variable {σ ε κ : Type}

def outcomes [Listener σ ε κ] (s : σ) : List (Accepted κ) := (Listener.answers s).map (·.1)

/-- What waits to be accepted next. -/
def Source.stock (s : Source κ) : List (Accepted κ) := s.incoming.head?.toList

def Reconnecting.stock (s : Reconnecting κ) : List (Accepted κ) := s.buffer.toList.map .ok

/-- What waits to be accepted next: a connection, an error, or both. -/
def Mux.stock (s : Mux σ κ) : List (Accepted κ) :=
  s.connections.buffer.toList.map .ok ++ s.errors.buffer.toList.map .error

end Listen

namespace Inspect

open Listen

variable {σ τ ε δ κ ρ : Type}

/-- What waits to be accepted next: a connection, an error, or both. -/
def Inspector.stock (s : Inspector σ ρ) : List (Accepted (Passed ρ)) :=
  s.connections.buffer.toList.map (fun c => .ok c.2) ++ s.errors.buffer.toList.map .error

/-- The listeners that are built from sources and reconnecting listeners by stamps, multiplexers and
inspectors, each with what waits in it to be accepted next. -/
inductive Built :
    (σ : Type) → {ε κ : Type} → [Listener σ ε κ] → (σ → List (Accepted κ)) → Prop where
  | source {κ : Type} : Built (Source κ) Source.stock
  | reconnecting {κ : Type} : Built (Reconnecting κ) Reconnecting.stock
  | sum {σ τ ε δ κ : Type} [Listener σ ε κ] [Listener τ δ κ] {f : σ → List (Accepted κ)}
      {g : τ → List (Accepted κ)} (hs : Built σ f) (ht : Built τ g) : Built (σ ⊕ τ) (Sum.elim f g)
  | tagged {σ ε κ : Type} [Listener σ ε κ] {f : σ → List (Accepted κ)} (h : Built σ f) :
      Built (TaggedListener σ) fun s => (f s.inner).map (tag s.provenance)
  | mux {σ ε κ : Type} [Listener σ ε κ] [DecidableEq κ] {f : σ → List (Accepted κ)}
      (h : Built σ f) : Built (Mux σ κ) Mux.stock
  | inspector {σ ε ρ : Type} [Listener σ ε (Tagged (Connection ρ))] [DecidableEq ρ]
      {f : σ → List (Accepted (Tagged (Connection ρ)))} (h : Built σ f) :
      Built (Inspector σ ρ) Inspector.stock

/-- From the call of close on a listener is shut: nothing opens it again, and accepts return that it
is closed, or what waits. -/
structure ShutBy [Listener σ ε κ] (shut : σ → Prop) (stock : σ → List (Accepted κ)) : Prop where
  close : ∀ {s t : σ}, Listener.close? s = some t → shut t
  step : ∀ {s t : σ} {e : ε}, shut s → Listener.step? s e = some t → shut t
  answer : ∀ {s t : σ} {r : Accepted κ}, shut s → (r, t) ∈ Listener.answers s → shut t
  mem_outcomes : ∀ {s : σ}, shut s → ∀ r, r ∈ outcomes s ↔ r = .error .closed ∨ r ∈ stock s

/-! ## One kind after the other -/

theorem shutBy_source : ShutBy (fun s : Source κ => s.closed = true) Source.stock where
  close h := Source.closed_of_close? h
  step {s t e} hs h := by
    cases h
    exact hs
  answer hs h := (Source.closed_of_answers h).trans hs
  mem_outcomes {s} hs r := by
    cases hin : s.incoming <;>
      simp [outcomes, Listener.answers, Source.answers, Source.stock, hs, hin]

theorem shutBy_reconnecting :
    ShutBy (fun s : Reconnecting κ => s.closed = true) Reconnecting.stock where
  close h := by rw [Reconnecting.eq_of_close? h]
  step hs h := (Reconnecting.step?_open h).1.trans hs
  answer hs h := (Reconnecting.eq_of_answers h).1.trans hs
  mem_outcomes {s} hs r := by
    cases hb : s.buffer with
    | none =>
      cases hended : s.hasEnded <;>
        simp [outcomes, Listener.answers, Reconnecting.answers, Reconnecting.stock, hs, hb, hended]
    | some c =>
      simp [outcomes, Listener.answers, Reconnecting.answers, Reconnecting.stock, hs, hb]

theorem ShutBy.sum [Listener σ ε κ] [Listener τ δ κ] {shut : σ → Prop} {shut' : τ → Prop}
    {f : σ → List (Accepted κ)} {g : τ → List (Accepted κ)} (hs : ShutBy shut f)
    (ht : ShutBy shut' g) : ShutBy (σ := σ ⊕ τ) (Sum.elim shut shut') (Sum.elim f g) where
  close {s t} h := by
    cases s with
    | inl s =>
      obtain ⟨u, hu, rfl⟩ := Option.map_eq_some_iff.mp h
      exact hs.close hu
    | inr s =>
      obtain ⟨u, hu, rfl⟩ := Option.map_eq_some_iff.mp h
      exact ht.close hu
  step {s t e} hshut h := by
    cases s with
    | inl s =>
      cases e with
      | inl e =>
        obtain ⟨u, hu, rfl⟩ := Option.map_eq_some_iff.mp h
        exact hs.step hshut hu
      | inr e => cases h
    | inr s =>
      cases e with
      | inl e => cases h
      | inr e =>
        obtain ⟨u, hu, rfl⟩ := Option.map_eq_some_iff.mp h
        exact ht.step hshut hu
  answer {s t r} hshut h := by
    cases s with
    | inl s =>
      obtain ⟨⟨r', u⟩, hu, heq⟩ := List.mem_map.mp h
      cases heq
      exact hs.answer hshut hu
    | inr s =>
      obtain ⟨⟨r', u⟩, hu, heq⟩ := List.mem_map.mp h
      cases heq
      exact ht.answer hshut hu
  mem_outcomes {s} hshut r := by
    cases s with
    | inl s => simpa [outcomes, Listener.answers] using hs.mem_outcomes hshut r
    | inr s => simpa [outcomes, Listener.answers] using ht.mem_outcomes hshut r

theorem ShutBy.tagged [Listener σ ε κ] {shut : σ → Prop} {f : σ → List (Accepted κ)}
    (h : ShutBy shut f) : ShutBy (fun s : TaggedListener σ => shut s.inner)
      (fun s => (f s.inner).map (tag s.provenance)) where
  close {s t} hclose := by
    obtain ⟨u, hu, rfl⟩ := Option.map_eq_some_iff.mp hclose
    exact h.close hu
  step {s t e} hshut hstep := by
    obtain ⟨u, hu, rfl⟩ := Option.map_eq_some_iff.mp hstep
    exact h.step hshut hu
  answer {s t r} hshut hmem := by
    obtain ⟨⟨r', u⟩, hu, heq⟩ := List.mem_map.mp hmem
    cases heq
    exact h.answer hshut hu
  mem_outcomes {s} hshut r := by
    have hmap : outcomes s = (outcomes s.inner).map (tag s.provenance) := by
      simp [outcomes, Listener.answers]
    have hclosed : tag s.provenance (.error .closed : Accepted κ) = .error .closed := rfl
    rw [hmap, List.mem_map, List.mem_map]
    constructor
    · rintro ⟨r', hr', rfl⟩
      rcases (h.mem_outcomes hshut r').mp hr' with rfl | hstock
      · exact .inl hclosed
      · exact .inr ⟨r', hstock, rfl⟩
    · rintro (rfl | ⟨r', hstock, rfl⟩)
      · exact ⟨_, (h.mem_outcomes hshut _).mpr (.inl rfl), hclosed⟩
      · exact ⟨r', (h.mem_outcomes hshut r').mpr (.inr hstock), rfl⟩

theorem shutBy_mux [Listener σ ε κ] [DecidableEq κ] :
    ShutBy (fun s : Mux σ κ => s.isClosed = true) Mux.stock where
  close {s t} h := (Mux.isClosed_of_perform? s .closeCalled t h).mpr (.inr rfl)
  step {s t e} hs h := (Mux.isClosed_of_perform? s (.event e) t h).mpr (.inl hs)
  answer {s t r} hs h :=
    (Mux.isClosed_of_goes_or_shuts (Mux.goes_or_shuts_of_answered? h)).mpr (.inl hs)
  mem_outcomes {s} hs r := by
    cases hc : s.connections.buffer <;> cases he : s.errors.buffer <;>
      simp [outcomes, Listener.answers, Mux.answers, Mux.stock, Channel.take?, hs, hc, he]

theorem shutBy_inspector [Listener σ ε (Tagged (Connection ρ))] [DecidableEq ρ] :
    ShutBy (fun s : Inspector σ ρ => s.isClosed = true) Inspector.stock where
  close {s t} h := (Inspector.isClosed_of_perform? s .closeCalled t h).mpr (.inr rfl)
  step {s t e} hs h := (Inspector.isClosed_of_perform? s (.event e) t h).mpr (.inl hs)
  answer {s t r} hs h :=
    (Inspector.isClosed_of_goes (Inspector.rear_goes_of_answered? h)).mpr (.inl hs)
  mem_outcomes {s} hs r := by
    cases hc : s.connections.buffer <;> cases he : s.errors.buffer <;>
      simp [outcomes, Listener.answers, Inspector.answers, Inspector.stock, Channel.take?, hs, hc,
        he]

theorem Built.shutBy [Listener σ ε κ] {stock : σ → List (Accepted κ)} (h : Built σ stock) :
    ∃ shut : σ → Prop, ShutBy shut stock := by
  induction h with
  | source => exact ⟨_, shutBy_source⟩
  | reconnecting => exact ⟨_, shutBy_reconnecting⟩
  | sum _ _ hs ht =>
    obtain ⟨_, hs⟩ := hs
    obtain ⟨_, ht⟩ := ht
    exact ⟨_, hs.sum ht⟩
  | tagged _ h =>
    obtain ⟨_, h⟩ := h
    exact ⟨_, h.tagged⟩
  | mux => exact ⟨_, shutBy_mux⟩
  | inspector => exact ⟨_, shutBy_inspector⟩

/-! ## After the call -/

theorem ShutBy.of_run [Listener σ ε κ] [DecidableEq κ] {shut : σ → Prop}
    {stock : σ → List (Accepted κ)} (hshut : ShutBy shut stock) {s t : σ} {acts : List (Act ε κ)}
    (h : run? s acts = some t) (hcalled : .closeCalled ∈ acts) : shut t := by
  have hkeeps : ∀ m a u, shut m → perform? m a = some u → shut u := by
    intro m a u hm hu
    cases a with
    | event e => exact hshut.step hm hu
    | accepted r => exact hshut.answer hm (mem_answers_of_answered? hu)
    | abandoned => exact Option.some.inj hu ▸ hm
    | closeCalled => exact hshut.close hu
    | closeRefused => exact eq_of_closeRefused hu ▸ hm
    | closeReturned r => exact eq_of_closeReturned hu ▸ hm
  refine run?_induction (fun acts m => .closeCalled ∈ acts → shut m) nofun ?_ h hcalled
  intro acts m a u hm hu hmem
  rcases List.mem_append.mp hmem with hbefore | hnow
  · exact hkeeps m a u (hm hbefore) hu
  · obtain rfl := List.mem_singleton.mp hnow
    exact hshut.close hu

/-- **Accepts after the call of close** may return that the listener is closed, or what waits in it
just then, and nothing else.  So they are sure to return the former if and only if nothing waits. -/
theorem outcomes_after_close [Listener σ ε κ] [DecidableEq κ] {stock : σ → List (Accepted κ)}
    (hbuilt : Built σ stock) {s t : σ} {acts : List (Act ε κ)} (h : run? s acts = some t)
    (hcalled : .closeCalled ∈ acts) :
    (∀ r, r ∈ outcomes t ↔ r = .error .closed ∨ r ∈ stock t) ∧
    ((∀ r ∈ outcomes t, r = .error .closed) ↔ ∀ r ∈ stock t, r = .error .closed) := by
  obtain ⟨shut, hshut⟩ := hbuilt.shutBy
  have houtcomes := hshut.mem_outcomes (hshut.of_run h hcalled)
  refine ⟨houtcomes, fun hall r hr => hall r ((houtcomes r).mpr (.inr hr)), fun hall r hr => ?_⟩
  rcases (houtcomes r).mp hr with hclosed | hstock
  · exact hclosed
  · exact hall r hstock

def lateSession : Session Nat := ⟨.empty, [.ok 1]⟩

/-- The connection is in the buffer when close is called. -/
def lateArrival : List (Act (Reconnecting.Event Nat) Nat) :=
  [.event .yielded, .event .delivered, .closeCalled]

/-- A source with one error, in a multiplexer. -/
def lastGasp : Mux (TaggedListener (Source Nat ⊕ Reconnecting Nat)) (Tagged Nat) where
  direct :=
    some { source := ⟨.inl { address := .empty, incoming := [.error (.relay "boom")] }, .direct⟩ }
  tunnel := none

/-- The error is in its channel when close is called. -/
def lateError : List (Act (Mux.Event (Source.Event Nat ⊕ Reconnecting.Event Nat) (Tagged Nat))
    (Tagged Nat)) :=
  [.event (.yielded .direct (.error (.relay "boom"))), .event .errorAdmitted, .closeCalled]

theorem late_connection_and_error :
    (∃ t, run? (Reconnecting.start lateSession) lateArrival = some t ∧ .closeCalled ∈ lateArrival ∧
      .error .closed ∈ outcomes t ∧ .ok 1 ∈ outcomes t) ∧
    ∃ t, run? lastGasp lateError = some t ∧ .closeCalled ∈ lateError ∧
      .error .closed ∈ outcomes t ∧ .error (.relay "boom") ∈ outcomes t := by
  constructor
  · obtain ⟨t, ht, hstock⟩ : ∃ t, run? (Reconnecting.start lateSession) lateArrival = some t ∧
        t.stock = [.ok 1] := ⟨_, rfl, rfl⟩
    have hcalled : .closeCalled ∈ lateArrival := by simp [lateArrival]
    obtain ⟨houtcomes, -⟩ := outcomes_after_close .reconnecting ht hcalled
    refine ⟨t, ht, hcalled, (houtcomes _).mpr (.inl rfl), (houtcomes _).mpr (.inr ?_)⟩
    simp [hstock]
  · obtain ⟨t, ht, hstock⟩ : ∃ t, run? lastGasp lateError = some t ∧
        t.stock = [.error (.relay "boom")] := ⟨_, rfl, rfl⟩
    have hcalled : .closeCalled ∈ lateError := by simp [lateError]
    obtain ⟨houtcomes, -⟩ :=
      outcomes_after_close (.mux (.tagged (.sum .source .reconnecting))) ht hcalled
    refine ⟨t, ht, hcalled, (houtcomes _).mpr (.inl rfl), (houtcomes _).mpr (.inr ?_)⟩
    simp [hstock]

end Inspect

end Gatehouse
