import Gatehouse.Proofs.Listen.Steps

/-!
# Who sends in a multiplexer

A relay task that has got something holds it until there is room in the channel, and no task holds
more than one thing.  A task that has ended holds nothing, and does nothing more.

    Mux.Orderly                : the relay tasks that hold something are those that send
    Mux.orderly_of_run         : so it is in every run
    Mux.keeps_ended            : a relay task that has ended stays so
-/

namespace Gatehouse.Listen.Mux

variable {σ ε κ : Type} [Listener σ ε κ] [DecidableEq κ]

def relay? (s : Mux σ κ) (p : Provenance) : Option Relay := (s.side p).map (·.relay)

/-- The relay tasks that hold something, once for each thing they hold. -/
def senders (s : Mux σ κ) : List Provenance :=
  s.connections.waiting.map (·.1) ++ s.errors.waiting.map (·.1)

/-- The relay tasks that send hold one thing each, and no other task holds anything. -/
structure Orderly (s : Mux σ κ) : Prop where
  nodup : s.senders.Nodup
  sending : ∀ p, p ∈ s.senders ↔ s.relay? p = some .sending

omit [Listener σ ε κ] [DecidableEq κ] in
theorem relay?_setRelay (s : Mux σ κ) (p q : Provenance) (r : Relay) :
    (s.setRelay p r).relay? q = if q = p then (s.relay? q).map (fun _ => r) else s.relay? q := by
  unfold relay?
  rw [side_setRelay]
  by_cases hq : q = p <;> cases s.side q <;> simp [hq]

omit [Listener σ ε κ] [DecidableEq κ] in
theorem relay?_withSource {s : Mux σ κ} {p : Provenance} {f : Fed σ} (hf : s.side p = some f)
    (u : σ) (q : Provenance) : (s.withSide p { f with source := u }).relay? q = s.relay? q := by
  unfold relay?
  rw [side_withSide]
  by_cases hq : q = p
  · simp [hq, hf]
  · simp [hq]

omit [DecidableEq κ] in
theorem relay?_closeSide (s : Mux σ κ) (p q : Provenance) :
    (s.closeSide p).1.relay? q = s.relay? q := by
  rw [relay?, side_closeSide, relay?, Option.map_map]
  congr 1
  funext f
  by_cases hq : q = p <;> simp [hq]

omit [Listener σ ε κ] [DecidableEq κ] in
theorem relaysEnded_iff {s : Mux σ κ} :
    s.relaysEnded = true ↔ ∀ p r, s.relay? p = some r → r = .ended := by
  have hside : ∀ f : Option (Fed σ), (f.all fun f => f.relay = .ended) = true ↔
      ∀ r, f.map (·.relay) = some r → r = .ended := by
    intro f
    cases f <;> simp
  simp only [relaysEnded, List.all_cons, List.all_nil, Bool.and_true, Bool.and_eq_true, hside]
  constructor
  · rintro ⟨hdirect, htunnel⟩ p
    cases p with
    | direct => exact hdirect
    | tunnel => exact htunnel
  · intro h
    exact ⟨h .direct, h .tunnel⟩

/-! ## Tasks that send -/

omit [Listener σ ε κ] [DecidableEq κ] in
/-- A task that held nothing begins to send. -/
theorem Orderly.joins {s t : Mux σ κ} {p : Provenance} (hs : s.Orderly)
    (hp : s.relay? p = some .accepting) (hsenders : t.senders.Perm (p :: s.senders))
    (hrelay : ∀ q, t.relay? q = if q = p then some .sending else s.relay? q) : t.Orderly := by
  have hfree : p ∉ s.senders := by
    intro hmem
    rw [hs.sending p, hp] at hmem
    cases hmem
  refine ⟨hsenders.nodup_iff.mpr (List.nodup_cons.mpr ⟨hfree, hs.nodup⟩), ?_⟩
  intro q
  rw [hsenders.mem_iff, List.mem_cons, hrelay, hs.sending]
  by_cases hq : q = p <;> simp [hq]

omit [Listener σ ε κ] [DecidableEq κ] in
/-- A task has sent what it held. -/
theorem Orderly.leaves {s t : Mux σ κ} {p : Provenance} (hs : s.Orderly)
    (hsenders : s.senders.Perm (p :: t.senders))
    (hrelay : ∀ q, t.relay? q = if q = p then (s.relay? q).map (fun _ => .accepting)
      else s.relay? q) : t.Orderly := by
  obtain ⟨hfree, hnodup⟩ := List.nodup_cons.mp (hsenders.nodup_iff.mp hs.nodup)
  refine ⟨hnodup, ?_⟩
  intro q
  have hbefore := hs.sending q
  rw [hsenders.mem_iff, List.mem_cons] at hbefore
  rw [hrelay]
  by_cases hq : q = p
  · subst hq
    cases hr : s.relay? q <;> simp [hfree]
  · simpa [hq] using hbefore

omit [Listener σ ε κ] [DecidableEq κ] in
theorem orderly_of_ofSources {direct tunnel : Option σ} {s : Mux σ κ}
    (h : ofSources direct tunnel = .ok s) : s.Orderly := by
  rw [eq_of_ofSources h]
  refine ⟨by simp [senders], ?_⟩
  intro p
  cases p <;> cases direct <;> cases tunnel <;> simp [senders, relay?, side]

omit [Listener σ ε κ] [DecidableEq κ] in
/-- A task gives up what it held, or held nothing. -/
theorem Orderly.stops {s t : Mux σ κ} {p : Provenance} (hs : s.Orderly)
    (hsenders : t.senders = s.senders.filter (· ≠ p))
    (hrelay : ∀ q, t.relay? q = if q = p then (s.relay? q).map (fun _ => .ended)
      else s.relay? q) : t.Orderly := by
  refine ⟨hsenders ▸ hs.nodup.filter _, fun q => ?_⟩
  rw [hsenders, List.mem_filter, hs.sending, hrelay]
  by_cases hq : q = p
  · cases hr : s.relay? q <;> simp [hq]
  · simp [hq]

theorem Goes.keeps_orderly {s t : Mux σ κ} {a : Act (Event ε κ) κ} (h : Goes s a t)
    (hs : s.Orderly) : t.Orderly := by
  cases h with
  | ofSource hf hu =>
    refine ⟨by simpa [senders] using hs.nodup, ?_⟩
    intro q
    simpa [senders, relay?_withSource hf] using hs.sending q
  | @yielded p f r u hf hrelay hu =>
    have hp : s.relay? p = some .accepting := by simp [relay?, hf, hrelay]
    have hset : ∀ q r, ((s.withSide p { f with source := u }).setRelay p r).relay? q =
        if q = p then some r else s.relay? q := by
      intro q r
      rw [relay?_setRelay, relay?_withSource hf]
      by_cases hq : q = p
      · simp [hq, hp]
      · simp [hq]
    unfold relayed
    split
    · refine hs.joins hp ?_ (hset · .sending)
      simp [senders, Channel.offer]
    · refine ⟨by simpa [senders] using hs.nodup, ?_⟩
      intro q
      have hbefore := hs.sending q
      rw [hset]
      by_cases hq : q = p
      · subst hq
        simpa [senders, hp] using hbefore
      · simpa [senders, hq] using hbefore
    · refine hs.joins hp ?_ (hset · .sending)
      simpa [senders, Channel.offer] using List.perm_append_singleton p s.senders
  | @admitted p c h =>
    obtain ⟨-, a, hw, -⟩ := Channel.admit?_eq_some.mp h
    refine hs.leaves (p := p) ?_ ?_
    · simp [senders, hw]
    · intro q
      exact relay?_setRelay s p q .accepting
  | @errorAdmitted p c h =>
    obtain ⟨-, a, hw, -⟩ := Channel.admit?_eq_some.mp h
    refine hs.leaves (p := p) ?_ ?_
    · simp [senders, hw]
    · intro q
      exact relay?_setRelay s p q .accepting
  | delivered h =>
    obtain ⟨-, rfl⟩ := Channel.take?_eq_some.mp h
    exact ⟨hs.nodup, hs.sending⟩
  | failed h =>
    obtain ⟨-, rfl⟩ := Channel.take?_eq_some.mp h
    exact ⟨hs.nodup, hs.sending⟩
  | abandoned => exact hs

omit [DecidableEq κ] in
theorem Shuts.keeps_orderly {s t : Mux σ κ} {a : Act (Event ε κ) κ} (h : Shuts s a t)
    (hs : s.Orderly) : t.Orderly := by
  have hclose : ∀ p (c : Closing),
      ({ (s.closeSide p).1 with closing := c } : Mux σ κ).Orderly := by
    intro p c
    refine ⟨by simpa [senders] using hs.nodup, fun q => ?_⟩
    show _ ↔ (s.closeSide p).1.relay? q = _
    rw [relay?_closeSide, ← hs.sending]
    simp [senders]
  cases h with
  | called => exact hclose .direct _
  | directAnswered => exact hclose .tunnel _
  | tunnelAnswered => exact ⟨hs.nodup, hs.sending⟩
  | @stopped p f hclosed hf hrelay =>
    refine hs.stops (p := p) ?_ fun q => relay?_setRelay s p q .ended
    simp [senders, Channel.withdraw, List.filter_map, Function.comp_def]
  | refused => exact hs
  | returned => exact hs
  | told => exact hs

theorem orderly_of_perform? {s t : Mux σ κ} {a : Act (Event ε κ) κ} (hs : s.Orderly)
    (h : perform? s a = some t) : t.Orderly := by
  rcases goes_or_shuts h with h | h
  · exact h.keeps_orderly hs
  · exact h.keeps_orderly hs

/-- **The tasks stay orderly.** -/
theorem orderly_of_run {s t : Mux σ κ} {acts : List (Act (Event ε κ) κ)} (hs : s.Orderly)
    (h : run? s acts = some t) : t.Orderly :=
  run?_keeps (fun _ _ _ => orderly_of_perform?) hs h

/-! ## Tasks that have ended -/

/-- A relay task that has ended does nothing more. -/
theorem Goes.keeps_ended {s t : Mux σ κ} {a : Act (Event ε κ) κ} (h : Goes s a t)
    (hs : s.Orderly) {p : Provenance} (hp : s.relay? p = some .ended) :
    t.relay? p = some .ended := by
  have hset : ∀ {q}, q ∈ s.senders → (s.setRelay q .accepting).relay? p = some .ended := by
    intro q hq
    rw [hs.sending] at hq
    have hne : p ≠ q := by
      rintro rfl
      simp [hp] at hq
    rw [relay?_setRelay, if_neg hne, hp]
  cases h with
  | ofSource hf hu => rw [relay?_withSource hf, hp]
  | @yielded q f r u hf hrelay =>
    have hne : p ≠ q := by
      rintro rfl
      simp [relay?, hf, hrelay] at hp
    obtain ⟨after, hside⟩ := side_relayed (s.withSide q { f with source := u }) q p r
    rw [relay?, hside, side_withSide, if_neg hne]
    simpa [hne, relay?] using hp
  | @admitted q c h =>
    obtain ⟨-, a, hw, -⟩ := Channel.admit?_eq_some.mp h
    exact hset (List.mem_append_left _ (by simp [hw]))
  | @errorAdmitted q c h =>
    obtain ⟨-, a, hw, -⟩ := Channel.admit?_eq_some.mp h
    exact hset (List.mem_append_right _ (by simp [hw]))
  | delivered => exact hp
  | failed => exact hp
  | abandoned => exact hp

omit [DecidableEq κ] in
theorem Shuts.keeps_ended {s t : Mux σ κ} {a : Act (Event ε κ) κ} (h : Shuts s a t)
    {p : Provenance} (hp : s.relay? p = some .ended) : t.relay? p = some .ended := by
  cases h with
  | called =>
    show (s.closeSide .direct).1.relay? p = _
    rw [relay?_closeSide, hp]
  | directAnswered =>
    show (s.closeSide .tunnel).1.relay? p = _
    rw [relay?_closeSide, hp]
  | @stopped q f =>
    show (s.setRelay q .ended).relay? p = _
    rw [relay?_setRelay, hp]
    split <;> rfl
  | _ => exact hp

/-- **A relay task that has ended stays so.** -/
theorem keeps_ended {s t : Mux σ κ} {a : Act (Event ε κ) κ} (hs : s.Orderly)
    (h : perform? s a = some t) {p : Provenance} (hp : s.relay? p = some .ended) :
    t.relay? p = some .ended := by
  rcases goes_or_shuts h with h | h
  · exact h.keeps_ended hs hp
  · exact h.keeps_ended hp

end Gatehouse.Listen.Mux
