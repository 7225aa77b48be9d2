import Gatehouse.Proofs.Listen.Senders

/-!
# Multiplexers that have nothing left

When its sources have ended, its relay tasks with them, and its channels are empty, a multiplexer
has nothing to return.  One might expect accepts to tell so.  But they wait, until the multiplexer
itself is closed.

    answers_iff_of_keeps : what accepts return when nothing is left
    Mux.Spent            : no relay task runs, and nothing is left
    Mux.ended_of_run     : a relay task ends with its source
    Mux.spent_of_run     : what is left when the sources have ended
-/

namespace Gatehouse.Listen

variable {σ ε κ : Type}

/-- Where a listener has nothing but the news that it is closed, and keeps it so, accepts return
this from the call of close on, and nothing before it. -/
theorem answers_iff_of_keeps [Listener σ ε κ] [DecidableEq κ] {spent : σ → Prop}
    {isClosed : σ → Bool} (hkeeps : ∀ s a t, spent s → perform? s a = some t → spent t)
    (hclosed : ∀ s a t, perform? s a = some t →
      (isClosed t = true ↔ isClosed s = true ∨ a = .closeCalled))
    (hanswers : ∀ s, spent s →
      Listener.answers s = if isClosed s then [(.error .closed, s)] else [])
    {s t : σ} {before acts : List (Act ε κ)} (hs : spent s)
    (hbefore : isClosed s = true ↔ .closeCalled ∈ before) (h : run? s acts = some t) :
    (Listener.answers t = [(.error .closed, t)] ↔ .closeCalled ∈ before ++ acts) ∧
    (Listener.answers t = [] ↔ .closeCalled ∉ before ++ acts) := by
  have hiff : isClosed t = true ↔ .closeCalled ∈ before ++ acts := by
    rw [run?_iff_mem hclosed h, hbefore, List.mem_append]
  rw [hanswers t (run?_keeps hkeeps hs h), ← hiff]
  cases isClosed t <;> simp

/-! ## Multiplexers -/

namespace Mux

/-- No relay task runs, and the channels are empty. -/
structure Spent (s : Mux σ κ) : Prop where
  ended : ∀ p r, s.relay? p = some r → r = .ended
  connections : s.connections.toList = []
  errors : s.errors.toList = []

section

variable [Listener σ ε κ] [DecidableEq κ]

/-- Nothing comes to a multiplexer that has nothing left. -/
theorem Spent.keeps {s t : Mux σ κ} {a : Act (Event ε κ) κ} (hs : s.Spent)
    (hstep : perform? s a = some t) : t.Spent := by
  have hclose : ∀ p (c : Closing), ({ (s.closeSide p).1 with closing := c } : Mux σ κ).Spent := by
    intro p c
    refine ⟨fun q r hr => hs.ended q r ?_, by simpa using hs.connections, by simpa using hs.errors⟩
    rwa [← relay?_closeSide s p q]
  rcases goes_or_shuts hstep with hgoes | hshuts
  · cases hgoes with
    | ofSource hf hu =>
      refine ⟨fun q r hr => ?_, by simpa using hs.connections, by simpa using hs.errors⟩
      rw [relay?_withSource hf] at hr
      exact hs.ended q r hr
    | @yielded p f r u hf hrelay =>
      have hended := hs.ended p f.relay (by simp [relay?, hf])
      rw [hrelay] at hended
      cases hended
    | admitted h => simp [Channel.admit?_eq_none hs.connections] at h
    | errorAdmitted h => simp [Channel.admit?_eq_none hs.errors] at h
    | delivered h => simp [Channel.take?_eq_none hs.connections] at h
    | failed h => simp [Channel.take?_eq_none hs.errors] at h
    | abandoned => exact hs
  · cases hshuts with
    | called => exact hclose .direct _
    | directAnswered => exact hclose .tunnel _
    | tunnelAnswered => exact ⟨hs.ended, hs.connections, hs.errors⟩
    | @stopped p f hclosed hf hrelay => exact absurd (hs.ended p _ (by simp [relay?, hf])) hrelay
    | refused => exact hs
    | returned => exact hs
    | told => exact hs

omit [DecidableEq κ] in
theorem Spent.answers_eq {s : Mux σ κ} (hs : s.Spent) :
    s.answers = if s.isClosed then [(.error .closed, s)] else [] := by
  simp [answers, Channel.take?_eq_none hs.connections, Channel.take?_eq_none hs.errors]

theorem ends_of_perform? {s t : Mux σ κ} {p : Provenance}
    (h : perform? s (.event (.yielded p (.error .closed)) : Act (Event ε κ) κ) = some t) :
    t.relay? p = some .ended := by
  rcases goes_or_shuts h with hgoes | hshuts
  · cases hgoes with
    | @yielded _ f _ u hf hrelay =>
      show ((s.withSide p { f with source := u }).setRelay p .ended).relay? p = _
      rw [relay?_setRelay, if_pos rfl, relay?_withSource hf]
      simp [relay?, hf]
  · cases hshuts

/-- **A relay task ends with its source.** -/
theorem ended_of_run {s t : Mux σ κ} {acts : List (Act (Event ε κ) κ)} (hs : s.Orderly)
    (h : run? s acts = some t) {p : Provenance}
    (hp : .event (.yielded p (.error .closed)) ∈ acts) : t.relay? p = some .ended := by
  refine (run?_induction (fun acts m => m.Orderly ∧
    (.event (.yielded p (.error .closed)) ∈ acts → m.relay? p = some .ended)) ⟨hs, nofun⟩ ?_
    h).2 hp
  rintro acts m a u ⟨horderly, hended⟩ hu
  refine ⟨orderly_of_perform? horderly hu, fun hmem => ?_⟩
  rcases List.mem_append.mp hmem with hbefore | hnow
  · exact keeps_ended horderly hu (hended hbefore)
  · obtain rfl := List.mem_singleton.mp hnow
    exact ends_of_perform? hu

/-- When all sources have ended and nothing is left in the buffers, nothing is left at all. -/
theorem spent_of_run {direct tunnel : Option σ} {s t : Mux σ κ} {acts : List (Act (Event ε κ) κ)}
    (hs : ofSources direct tunnel = .ok s) (h : run? s acts = some t)
    (hended : ∀ p, (s.side p).isSome = true → .event (.yielded p (.error .closed)) ∈ acts)
    (hconnections : t.connections.buffer = none) (herrors : t.errors.buffer = none) : t.Spent := by
  have horderly := orderly_of_ofSources hs
  have hall : ∀ p r, t.relay? p = some r → r = .ended := by
    intro p r hr
    have hside : (s.side p).isSome = true := by
      rw [← isSome_side_of_run? h p]
      obtain ⟨f, hf, -⟩ := Option.map_eq_some_iff.mp hr
      simp [hf]
    rw [ended_of_run horderly h (hended p hside)] at hr
    exact (Option.some.inj hr).symm
  -- Who waits for a channel is a task that sends.
  have hnone : t.senders = [] := by
    refine List.eq_nil_iff_forall_not_mem.mpr fun p hp => ?_
    rw [(orderly_of_run horderly h).sending] at hp
    cases hall p _ hp
  obtain ⟨hwaiting, hwaitingErrors⟩ := List.append_eq_nil_iff.mp hnone
  rw [List.map_eq_nil_iff] at hwaiting hwaitingErrors
  exact ⟨hall, by simp [Channel.toList, hconnections, hwaiting],
    by simp [Channel.toList, herrors, hwaitingErrors]⟩

end

end Mux

end Gatehouse.Listen
