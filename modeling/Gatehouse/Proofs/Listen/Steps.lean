import Gatehouse.Listen.Mux
import Gatehouse.Proofs.Listen.Runs

/-!
# The steps of a multiplexer

Whatever happens to a multiplexer is one of the steps told here: those by which connections and
errors go through it, and those by which it is closed.

    Mux.Goes              : a step that leaves closing where it is
    Mux.Shuts             : a step of closing, or one that there is after it has begun
    Mux.goes_or_shuts     : every step is one of these
    Mux.isClosed_of_run?  : a multiplexer is closed from the call on
-/

namespace Gatehouse.Listen.Mux

variable {σ ε κ : Type} [Listener σ ε κ] [DecidableEq κ]

/-- A step that leaves closing where it is. -/
inductive Goes (s : Mux σ κ) : Act (Event ε κ) κ → Mux σ κ → Prop where
  | ofSource {p : Provenance} {f : Fed σ} {e : ε} {u : σ} (hf : s.side p = some f)
      (hu : Listener.step? f.source e = some u) :
      Goes s (.event (.ofSource p e)) (s.withSide p { f with source := u })
  | yielded {p : Provenance} {f : Fed σ} {r : Accepted κ} {u : σ} (hf : s.side p = some f)
      (hrelay : f.relay = .accepting) (hu : answered? f.source r = some u) :
      Goes s (.event (.yielded p r)) ((s.withSide p { f with source := u }).relayed p r)
  | admitted {p : Provenance} {c : Channel Provenance κ}
      (h : s.connections.admit? = some (p, c)) :
      Goes s (.event .admitted) { s.setRelay p .accepting with connections := c }
  | errorAdmitted {p : Provenance} {c : Channel Provenance ListenerError}
      (h : s.errors.admit? = some (p, c)) :
      Goes s (.event .errorAdmitted) { s.setRelay p .accepting with errors := c }
  | delivered {a : κ} {c : Channel Provenance κ} (h : s.connections.take? = some (a, c)) :
      Goes s (.accepted (.ok a)) { s with connections := c }
  | failed {e : ListenerError} {c : Channel Provenance ListenerError}
      (h : s.errors.take? = some (e, c)) :
      Goes s (.accepted (.error e)) { s with errors := c }
  | abandoned : Goes s .abandoned s

/-- A step of closing, or one that there is after it has begun. -/
inductive Shuts (s : Mux σ κ) : Act (Event ε κ) κ → Mux σ κ → Prop where
  | called (hopen : s.closing = .notBegun) :
      Shuts s .closeCalled
        { (s.closeSide .direct).1 with closing := .direct (s.closeSide .direct).2 }
  | directAnswered {refused : Bool} {r : CloseResult} (hclosing : s.closing = .direct refused)
      (hr : s.sideResult? .direct refused = some r) :
      Shuts s (.event .sourceClosed)
        { (s.closeSide .tunnel).1 with closing := .tunnel r (s.closeSide .tunnel).2 }
  | tunnelAnswered {d r : CloseResult} {refused : Bool} (hclosing : s.closing = .tunnel d refused)
      (hr : s.sideResult? .tunnel refused = some r) :
      Shuts s (.event .sourceClosed) { s with closing := .relays (joinResults d r) }
  | stopped {p : Provenance} {f : Fed σ} (hclosed : s.isClosed = true) (hf : s.side p = some f)
      (hrelay : f.relay ≠ .ended) :
      Shuts s (.event (.stopped p))
        { s.setRelay p .ended with
          connections := s.connections.withdraw p
          errors := s.errors.withdraw p }
  | refused (hclosed : s.isClosed = true) : Shuts s .closeRefused s
  | returned {r : CloseResult} (hr : s.closeResult? = some r) : Shuts s (.closeReturned r) s
  | told (hclosed : s.isClosed = true) : Shuts s (.accepted (.error .closed)) s

/-! ## Lemmas -/

omit [Listener σ ε κ] [DecidableEq κ] in
theorem eq_of_ofSources {direct tunnel : Option σ} {s : Mux σ κ}
    (h : ofSources direct tunnel = .ok s) :
    s = { direct := direct.map ({ source := · }), tunnel := tunnel.map ({ source := · }) } := by
  unfold ofSources at h
  split at h
  · cases h
  · cases h
    rfl

omit [Listener σ ε κ] [DecidableEq κ] in
theorem isClosed_of_ofSources {direct tunnel : Option σ} {s : Mux σ κ}
    (h : ofSources direct tunnel = .ok s) : s.isClosed = false := by
  rw [eq_of_ofSources h]
  rfl

omit [Listener σ ε κ] [DecidableEq κ] in
theorem isClosed_eq_false {s : Mux σ κ} : s.isClosed = false ↔ s.closing = .notBegun := by
  unfold isClosed
  cases s.closing <;> simp

omit [DecidableEq κ] in
theorem closeResult?_eq_some {s : Mux σ κ} {r : CloseResult} :
    s.closeResult? = some r ↔ s.closing = .relays r ∧ s.relaysEnded = true := by
  unfold closeResult?
  cases s.closing <;> simp [and_comm]

omit [DecidableEq κ] in
@[simp] theorem connections_closeSide (s : Mux σ κ) (p : Provenance) :
    (s.closeSide p).1.connections = s.connections := by
  unfold closeSide
  split
  · rfl
  · split <;> simp

omit [DecidableEq κ] in
@[simp] theorem errors_closeSide (s : Mux σ κ) (p : Provenance) :
    (s.closeSide p).1.errors = s.errors := by
  unfold closeSide
  split
  · rfl
  · split <;> simp

omit [DecidableEq κ] in
theorem side_closeSide (s : Mux σ κ) (p q : Provenance) :
    (s.closeSide p).1.side q = (s.side q).map fun f =>
      if q = p then { f with source := (Listener.close? f.source).getD f.source } else f := by
  unfold closeSide
  by_cases hq : q = p
  · subst hq
    split
    · next hp => simp [hp]
    · next f hp => split <;> simp [*, side_withSide]
  · split
    · simp [hq]
    · split <;> simp [side_withSide, hq]

omit [DecidableEq κ] in
/-- A source refuses to be closed if there is one and it does. -/
theorem refused_closeSide (s : Mux σ κ) (p : Provenance) :
    (s.closeSide p).2 = (s.side p).any fun f => (Listener.close? f.source).isNone := by
  unfold closeSide
  split
  · next hp => simp [hp]
  · split <;> simp [*]

omit [Listener σ ε κ] [DecidableEq κ] in
theorem side_relayed (s : Mux σ κ) (p q : Provenance) (r : Accepted κ) :
    ∃ after, (s.relayed p r).side q =
      (s.side q).map fun f => if q = p then { f with relay := after } else f := by
  unfold relayed
  split
  · exact ⟨.sending, side_setRelay s p q .sending⟩
  · exact ⟨.ended, side_setRelay s p q .ended⟩
  · exact ⟨.sending, side_setRelay s p q .sending⟩

theorem goes_or_shuts_of_step? {s t : Mux σ κ} {e : Event ε κ} (h : step? s e = some t) :
    Goes s (.event e) t ∨ Shuts s (.event e) t := by
  cases e with
  | ofSource p e =>
    simp only [step?, Option.bind_eq_bind, Option.bind_eq_some_iff] at h
    obtain ⟨f, hf, u, hu, ht⟩ := h
    cases ht
    exact .inl (.ofSource hf hu)
  | yielded p r =>
    simp only [step?, Option.bind_eq_bind, Option.bind_eq_some_iff] at h
    obtain ⟨f, hf, h⟩ := h
    split at h
    · cases h
    · next hrelay =>
      obtain ⟨u, hu, ht⟩ := Option.bind_eq_some_iff.mp h
      cases ht
      exact .inl (.yielded hf (Decidable.not_not.mp hrelay) hu)
  | admitted =>
    simp only [step?, Option.bind_eq_bind, Option.bind_eq_some_iff] at h
    obtain ⟨⟨p, c⟩, hc, ht⟩ := h
    cases ht
    exact .inl (.admitted hc)
  | errorAdmitted =>
    simp only [step?, Option.bind_eq_bind, Option.bind_eq_some_iff] at h
    obtain ⟨⟨p, c⟩, hc, ht⟩ := h
    cases ht
    exact .inl (.errorAdmitted hc)
  | stopped p =>
    simp only [step?, Option.bind_eq_bind, Option.bind_eq_some_iff] at h
    obtain ⟨f, hf, h⟩ := h
    split at h
    · cases h
    · next hguard =>
      cases h
      simp only [Bool.or_eq_true, Bool.not_eq_true', decide_eq_true_eq, not_or,
        Bool.not_eq_false] at hguard
      exact .inr (.stopped hguard.1 hf hguard.2)
  | sourceClosed =>
    simp only [step?] at h
    split at h
    · next refused hclosing =>
      obtain ⟨r, hr, ht⟩ := Option.bind_eq_some_iff.mp h
      cases ht
      exact .inr (.directAnswered hclosing hr)
    · next d refused hclosing =>
      obtain ⟨r, hr, ht⟩ := Option.bind_eq_some_iff.mp h
      cases ht
      exact .inr (.tunnelAnswered hclosing hr)
    · cases h

theorem goes_or_shuts_of_answered? {s t : Mux σ κ} {r : Accepted κ} (h : (r, t) ∈ answers s) :
    Goes s (.accepted r) t ∨ Shuts s (.accepted r) t := by
  simp only [answers, List.mem_append, Option.mem_toList, Option.map_eq_some_iff,
    Prod.mk.injEq] at h
  rcases h with (h | ⟨⟨a, c⟩, hc, rfl, rfl⟩) | ⟨⟨e, c⟩, hc, rfl, rfl⟩
  · split at h
    · next hclosed =>
      simp only [List.mem_singleton, Prod.mk.injEq] at h
      obtain ⟨rfl, rfl⟩ := h
      exact .inr (.told hclosed)
    · cases h
  · exact .inl (.delivered hc)
  · exact .inl (.failed hc)

/-- **Whatever happens to a multiplexer is one of its steps.** -/
theorem goes_or_shuts {s t : Mux σ κ} {a : Act (Event ε κ) κ} (h : perform? s a = some t) :
    Goes s a t ∨ Shuts s a t := by
  cases a with
  | event e => exact goes_or_shuts_of_step? h
  | accepted r => exact goes_or_shuts_of_answered? (mem_answers_of_answered? h)
  | abandoned =>
    cases h
    exact .inl .abandoned
  | closeCalled =>
    simp only [perform?, Listener.close?, close?] at h
    split at h
    · cases h
    · next hopen =>
      cases h
      exact .inr (.called (isClosed_eq_false.mp (Bool.eq_false_iff.mpr hopen)))
  | closeRefused =>
    obtain rfl := eq_of_closeRefused h
    cases hclosed : s.isClosed with
    | true => exact .inr (.refused hclosed)
    | false => simp [perform?, Listener.close?, close?, hclosed] at h
  | closeReturned r =>
    simp only [perform?] at h
    split at h
    · next hr =>
      cases h
      exact .inr (.returned hr)
    · cases h

/-- Whatever happens to an open multiplexer, but the call that closes it, leaves it open. -/
theorem goes_of_perform? {s t : Mux σ κ} {a : Act (Event ε κ) κ} (hopen : s.closing = .notBegun)
    (ha : a ≠ .closeCalled) (h : perform? s a = some t) : Goes s a t := by
  have hclosed : s.isClosed = false := isClosed_eq_false.mpr hopen
  rcases goes_or_shuts h with hgoes | hshuts
  · exact hgoes
  · cases hshuts with
    | called => contradiction
    | directAnswered hclosing => simp [hopen] at hclosing
    | tunnelAnswered hclosing => simp [hopen] at hclosing
    | stopped hnot => simp [hclosed] at hnot
    | refused hnot => simp [hclosed] at hnot
    | returned hr => simp [closeResult?, hopen] at hr
    | told hnot => simp [hclosed] at hnot

theorem Goes.closing_eq {s t : Mux σ κ} {a : Act (Event ε κ) κ} (h : Goes s a t) :
    t.closing = s.closing := by
  cases h <;> simp

theorem Goes.ne_closeCalled {s t : Mux σ κ} {a : Act (Event ε κ) κ} (h : Goes s a t) :
    a ≠ .closeCalled := by
  rintro rfl
  cases h

/-- Of all steps only the call of close closes a multiplexer. -/
theorem isClosed_of_goes_or_shuts {s t : Mux σ κ} {a : Act (Event ε κ) κ}
    (h : Goes s a t ∨ Shuts s a t) : t.isClosed = true ↔ s.isClosed = true ∨ a = .closeCalled := by
  rcases h with h | h
  · have hsame : t.isClosed = s.isClosed := by rw [isClosed, isClosed, h.closing_eq]
    simp [hsame, h.ne_closeCalled]
  · cases h with
    | called => simp [isClosed]
    | directAnswered hclosing => simp [isClosed, hclosing]
    | tunnelAnswered hclosing => simp [isClosed, hclosing]
    | stopped hclosed =>
      simp only [isClosed, closing_setRelay] at hclosed ⊢
      simp [hclosed]
    | refused hclosed => simp [hclosed]
    | returned => simp
    | told hclosed => simp [hclosed]

theorem isClosed_of_perform? (s : Mux σ κ) (a : Act (Event ε κ) κ) (t : Mux σ κ)
    (h : perform? s a = some t) : t.isClosed = true ↔ s.isClosed = true ∨ a = .closeCalled :=
  isClosed_of_goes_or_shuts (goes_or_shuts h)

/-- **A multiplexer is closed from the call on.** -/
theorem isClosed_of_run? {s t : Mux σ κ} {acts : List (Act (Event ε κ) κ)}
    (h : run? s acts = some t) : t.isClosed = true ↔ s.isClosed = true ∨ .closeCalled ∈ acts :=
  run?_iff_mem isClosed_of_perform? h

/-- No source comes, and none goes. -/
theorem isSome_side_of_perform? {s t : Mux σ κ} {a : Act (Event ε κ) κ}
    (h : perform? s a = some t) (p : Provenance) : (t.side p).isSome = (s.side p).isSome := by
  have hwith : ∀ {q : Provenance} {f g : Fed σ}, s.side q = some f →
      ((s.withSide q g).side p).isSome = (s.side p).isSome := by
    intro q f g hf
    rw [side_withSide]
    by_cases hp : p = q
    · simp [hp, hf]
    · simp [hp]
  have hset : ∀ q r, ((s.setRelay q r).side p).isSome = (s.side p).isSome := by
    intro q r
    rw [side_setRelay, Option.isSome_map]
  have hclose : ∀ q, ((s.closeSide q).1.side p).isSome = (s.side p).isSome := by
    intro q
    rw [side_closeSide, Option.isSome_map]
  rcases goes_or_shuts h with hgoes | hshuts
  · cases hgoes with
    | ofSource hf hu => exact hwith hf
    | @yielded q f r u hf =>
      obtain ⟨after, hside⟩ := side_relayed (s.withSide q { f with source := u }) q p r
      rw [hside, Option.isSome_map]
      exact hwith hf
    | admitted => exact hset _ _
    | errorAdmitted => exact hset _ _
    | _ => rfl
  · cases hshuts with
    | called => exact hclose _
    | directAnswered => exact hclose _
    | stopped => exact hset _ _
    | _ => rfl

theorem isSome_side_of_run? {s t : Mux σ κ} {acts : List (Act (Event ε κ) κ)}
    (h : run? s acts = some t) (p : Provenance) : (t.side p).isSome = (s.side p).isSome := by
  refine run?_induction (fun _ m => (m.side p).isSome = (s.side p).isSome) rfl ?_ h
  intro acts m a t hm ht
  rw [isSome_side_of_perform? ht, hm]

end Gatehouse.Listen.Mux
