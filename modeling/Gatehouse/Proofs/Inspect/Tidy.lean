import Gatehouse.Proofs.Inspect.Steps
import Mathlib.Data.List.Forall2

/-!
# The order among the inspected connections

The connections that wait are those in the channel, each once, and the accepts take them from there,
each once.  Every step keeps it so: a task that goes on by itself touches no other, and a connection
comes into the channel and out of it by its own turns only.

    Inspector.Tidy        : what holds of the fates, the channel and the accepts in every run
    Inspector.Tidy.step   : a step keeps it
-/

namespace Gatehouse.Inspect

open Listen

variable {σ ε ρ : Type}

namespace Inspector

/-- The places of the connections in the channel. -/
def places (s : Inspector σ ρ) : List Nat := s.connections.toList.map (·.1)

/-- A connection has been passed on in the given form. -/
def HandsOn (s : Inspector σ ρ) (i : Nat) (p : Passed ρ) : Prop :=
  ∃ c, s.connection? i = some c ∧ Passes s.policy s.peek c p

/-- What holds in every run, in which accepts have delivered the connections of the places `js` in
the forms `ps`. -/
structure Tidy (s : Inspector σ ρ) (js : List Nat) (ps : List (Passed ρ)) : Prop where
  /-- Fates follow from decisions, and these from the connections alone. -/
  decided : ∀ i c f d, s.connection? i = some c → s.fate? i = some f → f.decision? = some d →
    ownDecision s.policy s.peek c = some d
  closing : ∀ i, s.fate? i = some (.dropped .closing) → s.isClosed = true
  handsOn : ∀ e ∈ s.connections.toList, s.HandsOn e.1 e.2
  /-- What is in the channel was sent by its own task. -/
  senders : ∀ w ∈ s.connections.waiting, w.1 = w.2.1
  nodup : s.places.Nodup
  waiting : ∀ i, i ∈ s.places ↔ s.fate? i = some .waiting
  once : js.Nodup
  delivered : ∀ i, i ∈ js ↔ s.fate? i = some .delivered
  handedOn : List.Forall₂ s.HandsOn js ps

section

variable {s t : Inspector σ ρ} {a : Act (Event ε ρ) (Passed ρ)} {js : List Nat}
  {ps : List (Passed ρ)}

theorem HandsOn.keep {i : Nat} {p : Passed ρ} (h : Keeps s t a) (hi : s.HandsOn i p) :
    t.HandsOn i p := by
  obtain ⟨c, hc, hpasses⟩ := hi
  refine ⟨c, h.connection hc, ?_⟩
  rw [h.policy, h.peek]
  exact hpasses

/-- A connection that has been passed on was to be passed on. -/
theorem HandsOn.decision {i : Nat} {p : Passed ρ} (h : s.HandsOn i p) {c : Tagged (Connection ρ)}
    (hc : s.connection? i = some c) : ownDecision s.policy s.peek c = some (.ok .pass) := by
  obtain ⟨c', hc', hello, hpass, hpeek, -⟩ := h
  obtain rfl : c' = c := Option.some.inj (hc'.symm.trans hc)
  simp [ownDecision, hpeek, hpass]

/-! ## Fates that stay -/

/-- Who has a fate `g` after a turn to another one. -/
theorem Turns.fate?_iff {i : Nat} {f g : Fate ρ} (h : Turns s t i f) (hfg : f ≠ g) (j : Nat) :
    t.fate? j = some g ↔ j ≠ i ∧ s.fate? j = some g := by
  rw [h]
  by_cases hj : j = i
  · simp [hj, hfg]
  · simp [hj]

/-- A turn between other fates than `g`. -/
theorem Turns.fate?_iff_of_ne {i : Nat} {f g : Fate ρ} (h : Turns s t i f) (hfg : f ≠ g)
    (hi : s.fate? i ≠ some g) (j : Nat) : t.fate? j = some g ↔ s.fate? j = some g := by
  rw [h.fate?_iff hfg, and_iff_right_iff_imp]
  rintro hj rfl
  exact hi hj

/-- A decision that was taken stays the right one. -/
theorem Tidy.decided_keep (hs : s.Tidy js ps) (h : Keeps s t a) {i : Nat}
    {c : Tagged (Connection ρ)} {f : Fate ρ} {d : Except Tls.HelloError Decision}
    (hc : t.connection? i = some c) (hf : s.fate? i = some f) (hd : f.decision? = some d) :
    ownDecision t.policy t.peek c = some d := by
  obtain ⟨x, hx, -⟩ := Option.map_eq_some_iff.mp hf
  have hbefore : s.connection? i = some x.connection := by simp [connection?, hx]
  obtain rfl : x.connection = c :=
    Option.some.inj ((h.connection hbefore).symm.trans hc)
  rw [h.policy, h.peek]
  exact hs.decided i _ f d hbefore hf hd

/-- The connection that turns to another fate does so by its own decision. -/
theorem Tidy.decided_turn (hs : s.Tidy js ps) (hk : Keeps s t a) {i : Nat} {f : Fate ρ}
    (hfate : Turns s t i f)
    (hown : ∀ c d, t.connection? i = some c → f.decision? = some d →
      ownDecision t.policy t.peek c = some d) (j : Nat) (c : Tagged (Connection ρ)) (g : Fate ρ)
    (d : Except Tls.HelloError Decision) (hc : t.connection? j = some c)
    (hg : t.fate? j = some g) (hd : g.decision? = some d) :
    ownDecision t.policy t.peek c = some d := by
  rw [hfate] at hg
  by_cases hj : j = i
  · subst hj
    obtain rfl : f = g := Option.some.inj ((if_pos rfl).symm.trans hg)
    exact hown c d hc hd
  · rw [if_neg hj] at hg
    exact hs.decided_keep hk hc hg hd

theorem Tidy.closing_turn (hs : s.Tidy js ps) (hk : Keeps s t a) {i : Nat} {f : Fate ρ}
    (hfate : Turns s t i f) (hclosing : f = .dropped .closing → t.isClosed = true) (j : Nat)
    (hj : t.fate? j = some (.dropped .closing)) : t.isClosed = true := by
  rw [hfate] at hj
  by_cases h : j = i
  · exact hclosing (Option.some.inj ((if_pos h).symm.trans hj))
  · rw [if_neg h] at hj
    exact hk.closed (hs.closing j hj)

/-! ## Steps -/

/-- Nothing moves but from the line into the channel. -/
theorem Tidy.still (hs : s.Tidy js ps) (hk : Keeps s t a) (hfate : ∀ i, t.fate? i = s.fate? i)
    (htoList : t.connections.toList = s.connections.toList)
    (hwaiting : ∀ w ∈ t.connections.waiting, w ∈ s.connections.waiting) : t.Tidy js ps where
  decided i c f d hc hf hd := hs.decided_keep hk hc (by rwa [hfate] at hf) hd
  closing i hi := hk.closed (hs.closing i (by rwa [hfate] at hi))
  handsOn e he := by
    rw [htoList] at he
    exact (hs.handsOn e he).keep hk
  senders w hw := hs.senders w (hwaiting w hw)
  nodup := by
    rw [places, htoList]
    exact hs.nodup
  waiting i := by
    rw [places, htoList, hfate]
    exact hs.waiting i
  once := hs.once
  delivered i := by
    rw [hfate]
    exact hs.delivered i
  handedOn := hs.handedOn.imp fun _ _ h => h.keep hk

/-- A task goes on by itself, outside of the channel. -/
theorem Tidy.alone (hs : s.Tidy js ps) (hk : Keeps s t a) {i : Nat} {f : Fate ρ}
    (hbefore : ∀ g, s.fate? i = some g → g.IsApart) (hafter : f.IsApart) (hfate : Turns s t i f)
    (hchannel : t.connections = s.connections)
    (hdecision : ∀ c d, t.connection? i = some c → f.decision? = some d →
      ownDecision s.policy s.peek c = some d ∨ ∃ g, s.fate? i = some g ∧ g.decision? = some d)
    (hclosing : f = .dropped .closing → t.isClosed = true) : t.Tidy js ps where
  decided := by
    refine hs.decided_turn hk hfate ?_
    intro c d hc hd
    rcases hdecision c d hc hd with h | ⟨g, hg, hd'⟩
    · rw [hk.policy, hk.peek]
      exact h
    · exact hs.decided_keep hk hc hg hd'
  closing := hs.closing_turn hk hfate hclosing
  handsOn e he := by
    rw [hchannel] at he
    exact (hs.handsOn e he).keep hk
  senders := by
    rw [hchannel]
    exact hs.senders
  nodup := by
    rw [places, hchannel]
    exact hs.nodup
  waiting j := by
    have hplaces : t.places = s.places := by rw [places, places, hchannel]
    rw [hplaces, hfate.fate?_iff_of_ne hafter.1 fun h => (hbefore _ h).1 rfl]
    exact hs.waiting j
  once := hs.once
  delivered j := by
    rw [hfate.fate?_iff_of_ne hafter.2 fun h => (hbefore _ h).2 rfl]
    exact hs.delivered j
  handedOn := hs.handedOn.imp fun _ _ h => h.keep hk

/-- A connection gets in line for the channel. -/
theorem Tidy.passed (hs : s.Tidy js ps) (hk : Keeps s t a) {i : Nat} {c : Tagged (Connection ρ)}
    {p : Passed ρ} (hbefore : s.fate? i = some .peeking) (hc : s.connection? i = some c)
    (hpasses : Passes s.policy s.peek c p) (hfate : Turns s t i .waiting)
    (hchannel : t.connections = s.connections.offer i (i, p)) : t.Tidy js ps := by
  have htoList : t.connections.toList = s.connections.toList ++ [(i, p)] := by
    rw [hchannel, Channel.toList_offer]
  have hplaces : t.places = s.places ++ [i] := by simp [places, htoList]
  have hhandsOn : t.HandsOn i p := HandsOn.keep hk ⟨c, hc, hpasses⟩
  constructor
  case decided =>
    refine hs.decided_turn hk hfate ?_
    intro c d hc hd
    cases hd
    exact hhandsOn.decision hc
  case closing => exact hs.closing_turn hk hfate nofun
  case handsOn =>
    intro e he
    rw [htoList, List.mem_append, List.mem_singleton] at he
    rcases he with he | rfl
    · exact (hs.handsOn e he).keep hk
    · exact hhandsOn
  case senders =>
    intro w hw
    rw [hchannel] at hw
    rcases List.mem_append.mp hw with hw | hw
    · exact hs.senders w hw
    · rw [List.mem_singleton.mp hw]
  case nodup =>
    rw [hplaces]
    refine List.nodup_append.mpr ⟨hs.nodup, by simp, ?_⟩
    intro j hj j' hj' heq
    rw [heq, List.mem_singleton.mp hj', hs.waiting, hbefore] at hj
    cases hj
  case waiting =>
    intro j
    rw [hplaces, List.mem_append, List.mem_singleton, hfate, hs.waiting]
    by_cases hj : j = i <;> simp [hj]
  case once => exact hs.once
  case delivered =>
    intro j
    rw [hfate.fate?_iff_of_ne (g := .delivered) nofun (by rw [hbefore]; nofun)]
    exact hs.delivered j
  case handedOn => exact hs.handedOn.imp fun _ _ h => h.keep hk

/-- Giving up takes one place out of the channel. -/
theorem places_withdraw {c : Channel Nat (Nat × Passed ρ)} {i : Nat}
    (hsenders : ∀ w ∈ c.waiting, w.1 = w.2.1) (hnodup : (c.toList.map (·.1)).Nodup)
    (hi : i ∈ c.waiting.map (·.1)) :
    (c.withdraw i).toList.map (·.1) = (c.toList.map (·.1)).filter (· ≠ i) := by
  have hself : c.waiting.map (fun w => w.2.1) = c.waiting.map (·.1) :=
    List.map_congr_left fun w hw => (hsenders w hw).symm
  have hline : (c.waiting.filter (·.1 ≠ i)).map (fun w => w.2.1) =
      (c.waiting.map fun w => w.2.1).filter (· ≠ i) := by
    rw [List.filter_map]
    congr 1
    refine List.filter_congr fun w hw => ?_
    simp [hsenders w hw]
  simp only [Channel.toList, List.map_append, List.map_map, Function.comp_def] at hnodup ⊢
  rw [List.filter_append]
  obtain ⟨-, -, hapart⟩ := List.nodup_append.mp hnodup
  have hbuffer : (c.buffer.toList.map (·.1)).filter (· ≠ i) = c.buffer.toList.map (·.1) := by
    refine List.filter_eq_self.mpr fun j hj => ?_
    simpa using hapart j hj i (by rwa [hself])
  rw [hbuffer, ← hline]
  rfl

/-- A connection is given up while it is in line. -/
theorem Tidy.withdrawn (hs : s.Tidy js ps) (hk : Keeps s t a) {i : Nat}
    (hbefore : i ∈ s.connections.waiting.map (·.1)) (hfate : Turns s t i (.dropped .closing))
    (hchannel : t.connections = s.connections.withdraw i) (hclosed : t.isClosed = true) :
    t.Tidy js ps := by
  have hplaces : t.places = s.places.filter (· ≠ i) := by
    rw [places, hchannel]
    exact places_withdraw hs.senders hs.nodup hbefore
  have hsub : t.connections.toList.Sublist s.connections.toList := by
    rw [hchannel]
    exact (List.Sublist.refl _).append (List.filter_sublist.map _)
  have hwaiting : s.fate? i = some .waiting := by
    obtain ⟨w, hw, rfl⟩ := List.mem_map.mp hbefore
    refine (hs.waiting w.1).mp (List.mem_map.mpr ⟨w.2, ?_, (hs.senders w hw).symm⟩)
    exact List.mem_append_right _ (List.mem_map.mpr ⟨w, hw, rfl⟩)
  constructor
  case decided => exact hs.decided_turn hk hfate nofun
  case closing => exact hs.closing_turn hk hfate fun _ => hclosed
  case handsOn =>
    intro e he
    exact (hs.handsOn e (hsub.subset he)).keep hk
  case senders =>
    intro w hw
    rw [hchannel] at hw
    exact hs.senders w (List.mem_filter.mp hw).1
  case nodup =>
    rw [hplaces]
    exact hs.nodup.filter _
  case waiting =>
    intro j
    rw [hfate.fate?_iff (g := .waiting) nofun, ← hs.waiting, hplaces, List.mem_filter,
      decide_eq_true_eq]
    exact and_comm
  case once => exact hs.once
  case delivered =>
    intro j
    rw [hfate.fate?_iff_of_ne (g := .delivered) nofun (by rw [hwaiting]; nofun)]
    exact hs.delivered j
  case handedOn => exact hs.handedOn.imp fun _ _ h => h.keep hk

/-- An accept takes the connection that is first in the channel. -/
theorem Tidy.taken (hs : s.Tidy js ps) (hk : Keeps s t a) {i : Nat} {p : Passed ρ}
    (hfate : Turns s t i .delivered)
    (hchannel : s.connections.take? = some ((i, p), t.connections)) :
    t.Tidy (js ++ [i]) (ps ++ [p]) := by
  have htoList : s.connections.toList = (i, p) :: t.connections.toList :=
    Channel.toList_take hchannel
  have hplaces : s.places = i :: t.places := by simp [places, htoList]
  have hhandsOn : t.HandsOn i p :=
    HandsOn.keep hk (hs.handsOn (i, p) (by rw [htoList]; exact List.mem_cons_self ..))
  have hwaiting : s.fate? i = some .waiting :=
    (hs.waiting i).mp (by rw [hplaces]; exact List.mem_cons_self ..)
  obtain ⟨hfree, hnodup⟩ := List.nodup_cons.mp (hplaces ▸ hs.nodup)
  constructor
  case decided =>
    refine hs.decided_turn hk hfate ?_
    intro c d hc hd
    cases hd
    exact hhandsOn.decision hc
  case closing => exact hs.closing_turn hk hfate nofun
  case handsOn =>
    intro e he
    exact (hs.handsOn e (by rw [htoList]; exact List.mem_cons_of_mem _ he)).keep hk
  case senders =>
    obtain ⟨-, hrest⟩ := Channel.take?_eq_some.mp hchannel
    rw [hrest]
    exact hs.senders
  case nodup => exact hnodup
  case waiting =>
    intro j
    rw [hfate.fate?_iff (g := .waiting) nofun, ← hs.waiting, hplaces, List.mem_cons]
    constructor
    · intro hj
      exact ⟨fun heq => hfree (heq ▸ hj), .inr hj⟩
    · rintro ⟨hne, rfl | hj⟩
      · contradiction
      · exact hj
  case once =>
    refine List.nodup_append.mpr ⟨hs.once, by simp, ?_⟩
    intro j hj j' hj' heq
    rw [heq, List.mem_singleton.mp hj', hs.delivered, hwaiting] at hj
    cases hj
  case delivered =>
    intro j
    rw [List.mem_append, List.mem_singleton, hfate, hs.delivered]
    by_cases hj : j = i <;> simp [hj]
  case handedOn =>
    exact List.rel_append (hs.handedOn.imp fun _ _ h => h.keep hk) (.cons hhandsOn .nil)

/-- A step keeps all in order, whichever connection it moves. -/
theorem Tidy.step (hs : s.Tidy js ps) (h : Steps s t a) :
    ∃ js', t.Tidy js' (ps ++ (a.result?.bind Listen.connection?).toList) := by
  obtain ⟨hk, hgoes⟩ := h
  cases hgoes with
  | idle hfate hchannel hresult =>
    rw [hresult, Option.toList_none, List.append_nil]
    exact ⟨js, hs.still hk hfate (by rw [hchannel]) (by rw [hchannel]; exact fun _ h => h)⟩
  | alone i f hbefore hafter hfate hchannel hdecision hclosing =>
    refine ⟨js, ?_⟩
    simpa [Act.result?] using hs.alone hk hbefore hafter hfate hchannel hdecision hclosing
  | passed hbefore hc hpasses hfate hchannel =>
    refine ⟨js, ?_⟩
    simpa [Act.result?] using hs.passed hk hbefore hc hpasses hfate hchannel
  | admitted hfate hchannel =>
    obtain ⟨-, _, hw, -⟩ := Channel.admit?_eq_some.mp hchannel
    refine ⟨js, ?_⟩
    have htidy := hs.still hk hfate (Channel.toList_admit hchannel)
      fun w h => by rw [hw]; exact List.mem_cons_of_mem _ h
    simpa [Act.result?] using htidy
  | withdrawn hbefore hfate hchannel hclosed =>
    refine ⟨js, ?_⟩
    simpa [Act.result?] using hs.withdrawn hk hbefore hfate hchannel hclosed
  | @delivered i p hfate hchannel => exact ⟨js ++ [i], hs.taken hk hfate hchannel⟩

/-- What an accept has returned is the form in which some connection was passed on. -/
theorem Tidy.exists_handsOn (hs : s.Tidy js ps) {p : Passed ρ} (hp : p ∈ ps) :
    ∃ i, s.HandsOn i p := by
  obtain ⟨hlength, hget⟩ := List.forall₂_iff_get.mp hs.handedOn
  obtain ⟨k, rfl⟩ := List.mem_iff_get.mp hp
  exact ⟨_, hget k (hlength.symm ▸ k.isLt) k.isLt⟩

/-- A new inspector has taken nothing. -/
theorem tidy_new {inner : σ} {policy : Policy} {peek : ρ → Tls.Peeked ρ} :
    ({ inner, policy, peek } : Inspector σ ρ).Tidy [] [] where
  decided := nofun
  closing := nofun
  handsOn := nofun
  senders := nofun
  nodup := List.nodup_nil
  waiting _ := iff_of_false nofun nofun
  once := List.nodup_nil
  delivered _ := iff_of_false nofun nofun
  handedOn := .nil

end

end Inspector

end Gatehouse.Inspect
