import Gatehouse.Proofs.Listen.Senders

/-!
# What an open multiplexer does

What the steps of a multiplexer keep that nobody has closed: connections and errors come out in the
order in which the relay tasks got them, and on either side the source runs as it would by itself.

    Mux.sideAct?               : what a step is to the source of one side
    Mux.connections_conserved  : connections are lost by no step
    Mux.errors_conserved       : nor are errors
    Mux.source_runs            : what happens on a side is a run of its source
-/

namespace Gatehouse.Listen.Mux

variable {σ ε κ : Type} [Listener σ ε κ] [DecidableEq κ]

/-! ## What goes through the channels -/

/-- What a relay task gets from its source. -/
def yielded? : Act (Event ε κ) κ → Option (Accepted κ)
  | .event (.yielded _ r) => some r
  | _ => none

/-- Nobody has closed the listener, and it is about to tell nobody that it is closed. -/
structure Open (s : Mux σ κ) : Prop where
  notBegun : s.closing = .notBegun
  silent : .closed ∉ s.errors.toList

omit [Listener σ ε κ] [DecidableEq κ] in
theorem open_of_ofSources {direct tunnel : Option σ} {s : Mux σ κ}
    (h : ofSources direct tunnel = .ok s) : s.Open := by
  rw [eq_of_ofSources h]
  exact ⟨rfl, by simp [Channel.toList]⟩

theorem Goes.keeps_open {s t : Mux σ κ} {a : Act (Event ε κ) κ} (h : Goes s a t)
    (hs : s.Open) : t.Open := by
  obtain ⟨hopen, hsilent⟩ := hs
  cases h with
  | ofSource => exact ⟨by simpa using hopen, by simpa using hsilent⟩
  | @yielded p f r u hf hrelay hu =>
    refine ⟨by simpa using hopen, ?_⟩
    unfold relayed
    split
    · simpa using hsilent
    · simpa using hsilent
    · next e he => simpa [Channel.toList_offer] using ⟨hsilent, fun h => he (h ▸ rfl)⟩
  | admitted => exact ⟨by simpa using hopen, by simpa using hsilent⟩
  | errorAdmitted h => exact ⟨by simpa using hopen, by simpa [Channel.toList_admit h] using hsilent⟩
  | delivered => exact ⟨hopen, hsilent⟩
  | failed h =>
    rw [Channel.toList_take h] at hsilent
    exact ⟨hopen, fun hmem => hsilent (List.mem_cons_of_mem _ hmem)⟩
  | abandoned => exact ⟨hopen, hsilent⟩

theorem open_of_perform? (s : Mux σ κ) (a : Act (Event ε κ) κ) (t : Mux σ κ)
    (hs : s.Open) (ha : a ≠ .closeCalled) (h : perform? s a = some t) : t.Open :=
  Goes.keeps_open (goes_of_perform? hs.notBegun ha h) hs

theorem Goes.conserves_connections {s t : Mux σ κ} {a : Act (Event ε κ) κ} (h : Goes s a t) :
    s.connections.toList ++ ((yielded? a).bind connection?).toList =
      (a.result?.bind connection?).toList ++ t.connections.toList := by
  cases h with
  | ofSource => simp [yielded?, Act.result?]
  | yielded hf hrelay hu =>
    unfold relayed
    split <;> simp [yielded?, Act.result?, connection?, Channel.toList_offer]
  | admitted h => simp [yielded?, Act.result?, Channel.toList_admit h]
  | errorAdmitted => simp [yielded?, Act.result?]
  | delivered h => simp [yielded?, Act.result?, connection?, Channel.toList_take h]
  | failed => simp [yielded?, Act.result?, connection?]
  | abandoned => simp [yielded?, Act.result?]

theorem Goes.conserves_errors {s t : Mux σ κ} {a : Act (Event ε κ) κ} (h : Goes s a t)
    (hs : s.Open) :
    s.errors.toList ++ ((yielded? a).bind error?).toList =
      (a.result?.bind error?).toList ++ t.errors.toList := by
  obtain ⟨-, hsilent⟩ := hs
  cases h with
  | ofSource => simp [yielded?, Act.result?]
  | yielded hf hrelay hu =>
    unfold relayed
    split <;> simp [yielded?, Act.result?, error?, Channel.toList_offer]
  | admitted => simp [yielded?, Act.result?]
  | errorAdmitted h => simp [yielded?, Act.result?, Channel.toList_admit h]
  | delivered => simp [yielded?, Act.result?, error?]
  | @failed e c h =>
    rw [Channel.toList_take h] at hsilent ⊢
    have he : e ≠ .closed := fun he => hsilent (he ▸ List.mem_cons_self ..)
    have herror : error? (.error e : Accepted κ) = some e := by
      cases e <;> first | rfl | contradiction
    simp [yielded?, Act.result?, herror]
  | abandoned => simp [yielded?, Act.result?]

/-- **Connections come out as the relay tasks got them**, and those that have not come out are in
the channel. -/
theorem connections_conserved {s t : Mux σ κ} {acts : List (Act (Event ε κ) κ)} (hs : s.Open)
    (hacts : .closeCalled ∉ acts) (h : run? s acts = some t) :
    s.connections.toList ++ (acts.filterMap yielded?).filterMap connection? =
      delivered acts ++ t.connections.toList := by
  rw [delivered, results, List.filterMap_filterMap, List.filterMap_filterMap,
    ← observed_of_acts _ h]
  refine run?_conserves Open (· ≠ .closeCalled) (fun s => s.connections.toList) _ _ ?_ hs
    (fun a ha he => hacts (he ▸ ha)) h
  intro s a t hs ha h
  have hgoes := goes_of_perform? hs.notBegun ha h
  exact ⟨hgoes.keeps_open hs, hgoes.conserves_connections⟩

/-- So do errors, but for those by which a source ends. -/
theorem errors_conserved {s t : Mux σ κ} {acts : List (Act (Event ε κ) κ)} (hs : s.Open)
    (hacts : .closeCalled ∉ acts) (h : run? s acts = some t) :
    s.errors.toList ++ (acts.filterMap yielded?).filterMap error? =
      failures acts ++ t.errors.toList := by
  rw [failures, results, List.filterMap_filterMap, List.filterMap_filterMap,
    ← observed_of_acts _ h]
  refine run?_conserves Open (· ≠ .closeCalled) (fun s => s.errors.toList) _ _ ?_ hs
    (fun a ha he => hacts (he ▸ ha)) h
  intro s a t hs ha h
  have hgoes := goes_of_perform? hs.notBegun ha h
  exact ⟨hgoes.keeps_open hs, hgoes.conserves_errors hs⟩

/-! ## What happens on a side -/

/-- What a step is to the source of a side. -/
def sideAct? (p : Provenance) : Act (Event ε κ) κ → Option (Act ε κ)
  | .event (.ofSource q e) => if q = p then some (.event e) else none
  | .event (.yielded q r) => if q = p then some (.accepted r) else none
  | _ => none

def sideActs (p : Provenance) (acts : List (Act (Event ε κ) κ)) : List (Act ε κ) :=
  acts.filterMap (sideAct? p)

/-- A step is at most one step of the source of a side. -/
theorem Goes.side_runs {s t : Mux σ κ} {a : Act (Event ε κ) κ} (h : Goes s a t) {p : Provenance}
    {f : Fed σ} (hp : s.side p = some f) :
    ∃ g, t.side p = some g ∧ run? f.source (sideAct? p a).toList = some g.source := by
  -- A step that only sets a relay task leaves the source where it is.
  have hset : ∀ q r, ∃ g, (s.setRelay q r).side p = some g ∧ g.source = f.source := by
    intro q r
    refine ⟨if p = q then { f with relay := r } else f, by rw [side_setRelay, hp]; rfl, ?_⟩
    split <;> rfl
  cases h with
  | @ofSource q f' e u hf hu =>
    by_cases hq : p = q
    · subst hq
      obtain rfl : f = f' := Option.some.inj (hp.symm.trans hf)
      refine ⟨{ f with source := u }, by simp [side_withSide], ?_⟩
      simp only [sideAct?, if_true, Option.toList_some]
      exact run?_cons.mpr ⟨u, hu, rfl⟩
    · exact ⟨f, by simp [side_withSide, hq, hp], by simp [sideAct?, Ne.symm hq]⟩
  | @yielded q f' r u hf hrelay hu =>
    obtain ⟨after, hside⟩ := side_relayed (s.withSide q { f' with source := u }) q p r
    rw [side_withSide] at hside
    by_cases hq : p = q
    · subst hq
      obtain rfl : f = f' := Option.some.inj (hp.symm.trans hf)
      refine ⟨{ source := u, relay := after }, by simpa using hside, ?_⟩
      simp only [sideAct?, if_true, Option.toList_some]
      exact run?_cons.mpr ⟨u, hu, rfl⟩
    · exact ⟨f, by simpa [hq, hp] using hside, by simp [sideAct?, Ne.symm hq]⟩
  | @admitted q c h =>
    obtain ⟨g, hg, hsource⟩ := hset q .accepting
    exact ⟨g, hg, by simp [sideAct?, hsource]⟩
  | @errorAdmitted q c h =>
    obtain ⟨g, hg, hsource⟩ := hset q .accepting
    exact ⟨g, hg, by simp [sideAct?, hsource]⟩
  | delivered => exact ⟨f, hp, rfl⟩
  | failed => exact ⟨f, hp, rfl⟩
  | abandoned => exact ⟨f, hp, rfl⟩

/-- **The source of a side runs as it would by itself**: its relay task accepts from it, and nobody
else does. -/
theorem source_runs {s t : Mux σ κ} {acts : List (Act (Event ε κ) κ)} {p : Provenance} {f : Fed σ}
    (hs : s.Open) (hp : s.side p = some f) (hacts : .closeCalled ∉ acts)
    (h : run? s acts = some t) :
    ∃ g, t.side p = some g ∧ run? f.source (sideActs p acts) = some g.source := by
  have hstep : ∀ (s : Mux σ κ) (u : σ) (a : Act (Event ε κ) κ) (t : Mux σ κ),
      (s.Open ∧ ∃ f, s.side p = some f ∧ f.source = u) → a ≠ .closeCalled →
      perform? s a = some t → ∃ v, (t.Open ∧ ∃ g, t.side p = some g ∧ g.source = v) ∧
        run? u (sideAct? p a).toList = some v := by
    rintro s _ a t ⟨hs, f, hf, rfl⟩ ha h
    obtain ⟨g, hg, hrun⟩ := (goes_of_perform? hs.notBegun ha h).side_runs hf
    exact ⟨g.source, ⟨open_of_perform? s a t hs ha h, g, hg, rfl⟩, hrun⟩
  obtain ⟨_, ⟨-, g, hg, rfl⟩, hrun⟩ := run?_projects hstep ⟨hs, f, hp, rfl⟩
    (fun a ha he => hacts (he ▸ ha)) h
  exact ⟨g, hg, hrun⟩

end Gatehouse.Listen.Mux
