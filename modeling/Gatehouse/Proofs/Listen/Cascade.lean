import Gatehouse.Proofs.Listen.Closing
import Gatehouse.Proofs.Listen.Merging

/-!
# How a multiplexer is closed

The call that closes a multiplexer asks its direct source first, and the other one when that has
answered, whatever the answer is.  It returns when both have answered and the relay tasks have
ended, which can always come to pass if the sources answer.

    Mux.sideSees?           : what a step is to the source of one side, closing included
    Mux.side_run            : what happens on a side is a run of its source
    Mux.Heard               : what the sources have heard of closing, and have answered
    Mux.heard_of_run        : it is as far as closing has come
    Mux.result_of_returned  : what has been returned stays the result
    Mux.returns_of_run      : the call that closes can always return
-/

namespace Gatehouse.Listen

variable {σ ε κ : Type}

namespace Mux

variable [Listener σ ε κ] [DecidableEq κ]

/-! ## What the sources see -/

/-- What a step is to the source of a side: its relay task accepts from it, and who closes the
multiplexer closes it. -/
def sideSees? (p : Provenance) (s : Mux σ κ) : Act (Event ε κ) κ → Option (Act ε κ)
  | .closeCalled => if p = .direct then (s.side p).map fun f => callOf f.source else none
  | .event .sourceClosed =>
    match s.closing, p with
    | .direct refused, .direct => (s.side p).bind fun f => returnOf? refused f.source
    | .direct _, .tunnel => (s.side p).map fun f => callOf f.source
    | .tunnel _ refused, .tunnel => (s.side p).bind fun f => returnOf? refused f.source
    | _, _ => none
  | a => sideAct? p a

theorem Goes.sideSees?_eq {s t : Mux σ κ} {a : Act (Event ε κ) κ} (h : Goes s a t)
    (p : Provenance) : sideSees? p s a = sideAct? p a := by
  cases h <;> rfl

/-- A source that is being closed is where a call of close leaves it. -/
theorem side_runs_of_closeSide {s : Mux σ κ} {p q : Provenance} {f : Fed σ}
    (hp : s.side p = some f) : ∃ g, (s.closeSide q).1.side p = some g ∧
      run? f.source (if p = q then [callOf f.source] else []) = some g.source := by
  rw [side_closeSide, hp]
  by_cases hq : p = q
  · refine ⟨{ f with source := (Listener.close? f.source).getD f.source }, by simp [hq], ?_⟩
    rw [if_pos hq]
    exact run?_callOf f.source
  · exact ⟨f, by simp [hq], by simp [hq]⟩

theorem Shuts.side_runs {s t : Mux σ κ} {a : Act (Event ε κ) κ} (h : Shuts s a t)
    {p : Provenance} {f : Fed σ} (hp : s.side p = some f) :
    ∃ g, t.side p = some g ∧ run? f.source (sideSees? p s a).toList = some g.source := by
  cases h with
  | called =>
    obtain ⟨g, hg, hrun⟩ := side_runs_of_closeSide (q := .direct) hp
    refine ⟨g, hg, ?_⟩
    cases p <;> simpa [sideSees?, hp] using hrun
  | @directAnswered refused r hclosing =>
    obtain ⟨g, hg, hrun⟩ := side_runs_of_closeSide (q := .tunnel) hp
    refine ⟨g, hg, ?_⟩
    cases p with
    | direct =>
      have hsame : f.source = g.source := Option.some.inj hrun
      simpa [sideSees?, hclosing, hp, ← hsame] using run?_returnOf? refused f.source
    | tunnel => simpa [sideSees?, hclosing, hp] using hrun
  | @tunnelAnswered d r refused hclosing =>
    refine ⟨f, hp, ?_⟩
    cases p with
    | direct => simp [sideSees?, hclosing]
    | tunnel => simpa [sideSees?, hclosing, hp] using run?_returnOf? refused f.source
  | @stopped q =>
    refine ⟨if p = q then { f with relay := .ended } else f, ?_, ?_⟩
    · show (s.setRelay q .ended).side p = _
      rw [side_setRelay, hp]
      rfl
    · split <;> rfl
  | refused => exact ⟨f, hp, rfl⟩
  | returned => exact ⟨f, hp, rfl⟩
  | told => exact ⟨f, hp, rfl⟩

/-- **What happens on a side is a run of its source**, closing included. -/
theorem side_run {s t : Mux σ κ} {acts : List (Act (Event ε κ) κ)} (h : run? s acts = some t)
    {p : Provenance} {f : Fed σ} (hp : s.side p = some f) :
    ∃ g, t.side p = some g ∧ run? f.source (observed (sideSees? p) s acts) = some g.source := by
  have hstep : ∀ (s : Mux σ κ) (u : σ) (a : Act (Event ε κ) κ) (t : Mux σ κ),
      (∃ f, s.side p = some f ∧ f.source = u) → True → perform? s a = some t →
      ∃ v, (∃ g, t.side p = some g ∧ g.source = v) ∧
        run? u (sideSees? p s a).toList = some v := by
    rintro s _ a t ⟨f, hf, rfl⟩ - h
    obtain ⟨g, hg, hrun⟩ : ∃ g, t.side p = some g ∧
        run? f.source (sideSees? p s a).toList = some g.source := by
      rcases goes_or_shuts h with hgoes | hshuts
      · rw [hgoes.sideSees?_eq]
        exact hgoes.side_runs hf
      · exact hshuts.side_runs hf
    exact ⟨g.source, ⟨g, hg, rfl⟩, hrun⟩
  obtain ⟨_, ⟨g, hg, rfl⟩, hrun⟩ := run?_observes hstep ⟨f, hp, rfl⟩ (fun _ _ => trivial) h
  exact ⟨g, hg, hrun⟩

/-! ## What they hear of closing -/

/-- The source of a side, if there is one, has been asked to close. -/
def AskedAt (s : Mux σ κ) (p : Provenance) (refused : Bool) (acts : List (Act ε κ)) : Prop :=
  if (s.side p).isSome then Asked refused acts else refused = false

/-- The source of a side has answered; one that is missing has nothing to say against closing. -/
def AnsweredAt (s : Mux σ κ) (p : Provenance) (r : CloseResult) (acts : List (Act ε κ)) : Prop :=
  if (s.side p).isSome then Answered r acts else r = .ok ()

/-- What the sources have been told of closing, and have answered, as far as it has come. -/
def Heard (s : Mux σ κ) (told : Provenance → List (Act ε κ)) : Prop :=
  match s.closing with
  | .notBegun => ∀ p, talk (told p) = []
  | .direct refused => s.AskedAt .direct refused (told .direct) ∧ talk (told .tunnel) = []
  | .tunnel d refused =>
    s.AnsweredAt .direct d (told .direct) ∧ s.AskedAt .tunnel refused (told .tunnel)
  | .relays r => ∃ d e, r = joinResults d e ∧ s.AnsweredAt .direct d (told .direct) ∧
      s.AnsweredAt .tunnel e (told .tunnel)

omit [DecidableEq κ] in
/-- What goes through the relay task of a side says nothing of closing. -/
theorem talk_sideAct? (p : Provenance) (a : Act (Event ε κ) κ) :
    talk (sideAct? p a).toList = ([] : List (Act ε κ)) := by
  unfold sideAct?
  split
  · split <;> rfl
  · split <;> rfl
  · rfl

omit [DecidableEq κ] in
theorem askedAt_closeSide {s t : Mux σ κ} {p : Provenance} {acts : List (Act ε κ)}
    (hside : (t.side p).isSome = (s.side p).isSome) (h : talk acts = []) :
    t.AskedAt p (s.closeSide p).2
      (acts ++ ((s.side p).map fun f => callOf f.source).toList) := by
  rw [AskedAt, hside, refused_closeSide]
  cases s.side p with
  | none => rfl
  | some f => exact asked_callOf h f.source

omit [DecidableEq κ] in
theorem AskedAt.answeredAt {s t : Mux σ κ} {p : Provenance} {refused : Bool}
    {acts : List (Act ε κ)} {r : CloseResult} (h : s.AskedAt p refused acts)
    (hside : (t.side p).isSome = (s.side p).isSome) (hr : s.sideResult? p refused = some r) :
    t.AnsweredAt p r
      (acts ++ ((s.side p).bind fun f => returnOf? refused f.source).toList) := by
  rw [AskedAt] at h
  rw [AnsweredAt, hside]
  rw [sideResult?] at hr
  cases hp : s.side p with
  | none =>
    rw [hp] at h hr
    obtain rfl : refused = false := h
    exact (Option.some.inj hr).symm
  | some f =>
    rw [hp] at h hr
    exact Asked.answered h hr

omit [Listener σ ε κ] [DecidableEq κ] in
/-- A step that says nothing to the sources, and leaves closing where it is. -/
theorem Heard.still {s t : Mux σ κ} {told told' : Provenance → List (Act ε κ)} (hs : s.Heard told)
    (hclosing : t.closing = s.closing) (hside : ∀ p, (t.side p).isSome = (s.side p).isSome)
    (htalk : ∀ p, talk (told' p) = talk (told p)) : t.Heard told' := by
  unfold Heard AskedAt AnsweredAt Asked Answered at hs ⊢
  simpa only [hclosing, hside, htalk] using hs

/-- **The sources hear of closing one after the other**, and closing goes on when they answer. -/
theorem Heard.step {s t : Mux σ κ} {told : Provenance → List (Act ε κ)}
    {a : Act (Event ε κ) κ} (hs : s.Heard told) (h : perform? s a = some t) :
    t.Heard fun p => told p ++ (sideSees? p s a).toList := by
  have hside := isSome_side_of_perform? h
  have hquiet : (∀ p, sideSees? p s a = sideAct? p a) → ∀ p,
      talk (told p ++ (sideSees? p s a).toList) = talk (told p) := by
    intro hsees p
    rw [talk_append, hsees, talk_sideAct?, List.append_nil]
  rcases goes_or_shuts h with hgoes | hshuts
  · exact hs.still hgoes.closing_eq hside (hquiet hgoes.sideSees?_eq)
  · cases hshuts with
    | called hopen =>
      simp only [Heard, hopen] at hs
      refine ⟨?_, ?_⟩
      · simpa [sideSees?] using askedAt_closeSide (hside .direct) (hs .direct)
      · simpa [sideSees?] using hs .tunnel
    | directAnswered hclosing hr =>
      simp only [Heard, hclosing] at hs
      obtain ⟨hdirect, htunnel⟩ := hs
      refine ⟨?_, ?_⟩
      · simpa [sideSees?, hclosing] using hdirect.answeredAt (hside .direct) hr
      · simpa [sideSees?, hclosing] using askedAt_closeSide (hside .tunnel) htunnel
    | tunnelAnswered hclosing hr =>
      simp only [Heard, hclosing] at hs
      obtain ⟨hdirect, htunnel⟩ := hs
      refine ⟨_, _, rfl, ?_, ?_⟩
      · simpa [sideSees?, hclosing, AnsweredAt, hside .direct] using hdirect
      · simpa [sideSees?, hclosing] using htunnel.answeredAt (hside .tunnel) hr
    | stopped => exact hs.still (by simp) hside (hquiet fun _ => rfl)
    | refused => exact hs.still rfl hside (hquiet fun _ => rfl)
    | returned => exact hs.still rfl hside (hquiet fun _ => rfl)
    | told => exact hs.still rfl hside (hquiet fun _ => rfl)

/-- **What the sources have heard is as far as closing has come**, in every run. -/
theorem heard_of_run {s t : Mux σ κ} {acts : List (Act (Event ε κ) κ)}
    (hopen : s.closing = .notBegun) (h : run? s acts = some t) :
    t.Heard fun p => observed (sideSees? p) s acts := by
  refine (run?_induction (fun acts m => run? s acts = some m ∧
    m.Heard fun p => observed (sideSees? p) s acts) ⟨rfl, ?_⟩ ?_ h).2
  · simp [Heard, hopen, observed, talk]
  · rintro acts m a u ⟨hm, hheard⟩ hu
    refine ⟨run?_append.mpr ⟨m, hm, run?_cons.mpr ⟨u, hu, rfl⟩⟩, ?_⟩
    simpa only [observed_concat _ hm hu] using hheard.step hu

omit [Listener σ ε κ] [DecidableEq κ] in
/-- A source is asked once at most. -/
theorem Heard.length_calls {s : Mux σ κ} {told : Provenance → List (Act ε κ)} (hs : s.Heard told)
    {p : Provenance} (hp : (s.side p).isSome = true) : (calls (told p)).length ≤ 1 := by
  have hunasked : ∀ q, talk (told q) = [] → (calls (told q)).length ≤ 1 := by
    intro q hq
    rw [← calls_talk, hq]
    exact Nat.zero_le 1
  have hasked : ∀ refused, s.AskedAt p refused (told p) → (calls (told p)).length ≤ 1 := by
    intro refused h
    rw [AskedAt, if_pos hp] at h
    exact Nat.le_of_eq h.length_calls
  have hanswered : ∀ r, s.AnsweredAt p r (told p) → (calls (told p)).length ≤ 1 := by
    intro r h
    rw [AnsweredAt, if_pos hp] at h
    exact Nat.le_of_eq h.length_calls
  unfold Heard at hs
  split at hs
  · exact hunasked p (hs p)
  · cases p with
    | direct => exact hasked _ hs.1
    | tunnel => exact hunasked _ hs.2
  · cases p with
    | direct => exact hanswered _ hs.1
    | tunnel => exact hasked _ hs.2
  · obtain ⟨d, e, -, hdirect, htunnel⟩ := hs
    cases p with
    | direct => exact hanswered _ hdirect
    | tunnel => exact hanswered _ htunnel

/-! ## The result -/

/-- A call that can return can do so later. -/
theorem keeps_result {s t : Mux σ κ} {a : Act (Event ε κ) κ} (hs : s.Orderly)
    (h : perform? s a = some t) {r : CloseResult} (hr : s.closeResult? = some r) :
    t.closeResult? = some r := by
  obtain ⟨hclosing, hended⟩ := closeResult?_eq_some.mp hr
  refine closeResult?_eq_some.mpr ⟨?_, relaysEnded_iff.mpr fun p r' hr' => ?_⟩
  · rcases goes_or_shuts h with hgoes | hshuts
    · rw [hgoes.closing_eq, hclosing]
    · cases hshuts with
      | called hopen => simp [hclosing] at hopen
      | directAnswered hnot => simp [hclosing] at hnot
      | tunnelAnswered hnot => simp [hclosing] at hnot
      | stopped => simpa using hclosing
      | _ => exact hclosing
  · have hrelay : (s.relay? p).isSome = true := by
      have hside : (t.relay? p).isSome = true := by simp [hr']
      rw [relay?, Option.isSome_map] at hside ⊢
      rwa [← isSome_side_of_perform? h p]
    obtain ⟨r'', hr''⟩ := Option.isSome_iff_exists.mp hrelay
    obtain rfl := relaysEnded_iff.mp hended p r'' hr''
    rw [keeps_ended hs h hr''] at hr'
    exact (Option.some.inj hr').symm

/-- **What has been returned stays the result.** -/
theorem result_of_returned {s t : Mux σ κ} {acts : List (Act (Event ε κ) κ)} (hs : s.Orderly)
    (h : run? s acts = some t) {r : CloseResult} (hr : .closeReturned r ∈ acts) :
    t.closeResult? = some r := by
  refine (run?_induction (fun acts m => m.Orderly ∧
    (.closeReturned r ∈ acts → m.closeResult? = some r)) ⟨hs, by simp⟩ ?_ h).2 hr
  rintro acts m a u ⟨horderly, hresult⟩ hu
  refine ⟨orderly_of_perform? horderly hu, fun hmem => ?_⟩
  rcases List.mem_append.mp hmem with hbefore | hnow
  · exact keeps_result horderly hu (hresult hbefore)
  · obtain rfl := List.mem_singleton.mp hnow
    rw [← eq_of_closeReturned hu]
    simp only [perform?] at hu
    split at hu
    · next hr => exact hr
    · cases hu

/-- A multiplexer is closed from the first call on. -/
def closable : Closable (Mux σ κ) where
  isClosed := isClosed
  isClosed_of_perform? := isClosed_of_perform?
  accepts s hs := by simp [Listener.close?, close?, hs]

/-! ## Closing comes to its end -/

omit [Listener σ ε κ] [DecidableEq κ] in
theorem withSide_withSide (s : Mux σ κ) (p : Provenance) (f g : Fed σ) :
    (s.withSide p f).withSide p g = s.withSide p g := by
  cases p <;> rfl

omit [Listener σ ε κ] [DecidableEq κ] in
theorem withSide_side {s : Mux σ κ} {p : Provenance} {f : Fed σ} (h : s.side p = some f) :
    s.withSide p f = s := by
  cases p
  · show { s with direct := some f } = s
    rw [← show s.direct = some f from h]
  · show { s with tunnel := some f } = s
    rw [← show s.tunnel = some f from h]

/-- A source is moved where it is. -/
theorem reaches_withSide {s : Mux σ κ} {p : Provenance} {f : Fed σ} {u : σ}
    (hp : s.side p = some f) (h : Reaches f.source u) :
    Reaches s (s.withSide p { f with source := u }) := by
  have hlift := h.lift (fun v => s.withSide p { f with source := v }) fun v e w hw =>
    ⟨.ofSource p e, by simp [Listener.step?, step?, side_withSide, hw, withSide_withSide]⟩
  rwa [withSide_side hp] at hlift

/-- The source of a side that has been asked to close can answer. -/
theorem reaches_answer (c : Stoppable σ) {s : Mux σ κ} {p : Provenance} (refused : Bool)
    (hclosed : ∀ f, s.side p = some f → c.isClosed f.source = true) :
    ∃ t r, Reaches s t ∧ t.closing = s.closing ∧ t.sideResult? p refused = some r := by
  cases refused with
  | true => exact ⟨s, _, .refl s, rfl, rfl⟩
  | false =>
    cases hp : s.side p with
    | none => exact ⟨s, .ok (), .refl s, rfl, by simp [sideResult?, hp]⟩
    | some f =>
      obtain ⟨u, r, hu, hr⟩ := c.returns f.source (hclosed f hp)
      exact ⟨_, r, reaches_withSide hp hu, by simp, by simp [sideResult?, side_withSide, hr]⟩

/-- The relay task of a side can stop when closing has begun. -/
theorem reaches_stopped {s : Mux σ κ} (hclosed : s.isClosed = true) (p : Provenance) :
    ∃ t, Reaches s t ∧ t.closing = s.closing ∧ (∀ r, t.relay? p = some r → r = .ended) ∧
      ∀ q, (∀ r, s.relay? q = some r → r = .ended) → ∀ r, t.relay? q = some r → r = .ended := by
  by_cases hdone : ∀ r, s.relay? p = some r → r = .ended
  · exact ⟨s, .refl s, rfl, hdone, fun _ => id⟩
  · obtain ⟨r, hr, hrunning⟩ : ∃ r, s.relay? p = some r ∧ r ≠ .ended := by
      simpa using hdone
    obtain ⟨f, hf, rfl⟩ := Option.map_eq_some_iff.mp hr
    have hstep : Listener.step? s (.stopped p : Event ε κ) = some { s.setRelay p .ended with
        connections := s.connections.withdraw p
        errors := s.errors.withdraw p } := by
      simp [Listener.step?, step?, hf, hclosed, hrunning]
    have hset : ∀ q r, (s.setRelay p .ended).relay? q = some r →
        q = p ∧ r = .ended ∨ s.relay? q = some r := by
      intro q r hq
      rw [relay?_setRelay] at hq
      split at hq
      · next heq =>
        obtain ⟨_, -, rfl⟩ := Option.map_eq_some_iff.mp hq
        exact .inl ⟨heq, rfl⟩
      · exact .inr hq
    refine ⟨_, .of_step? hstep, closing_setRelay s p .ended, fun r hr => ?_, fun q hq r hr => ?_⟩
    · change (s.setRelay p .ended).relay? p = some r at hr
      rw [relay?_setRelay, if_pos rfl] at hr
      obtain ⟨_, -, rfl⟩ := Option.map_eq_some_iff.mp hr
      rfl
    · rcases hset q r hr with ⟨-, rfl⟩ | hbefore
      · rfl
      · exact hq r hbefore

/-- When both sources have answered, the call can return after the relay tasks have stopped. -/
theorem returns_of_relays {s : Mux σ κ} {r : CloseResult} (hs : s.closing = .relays r) :
    ∃ t, Reaches s t ∧ t.closeResult? = some r := by
  have hclosed : s.isClosed = true := by simp [isClosed, hs]
  obtain ⟨m, hm, hclosing, hdirect, -⟩ := reaches_stopped hclosed .direct
  have hclosed' : m.isClosed = true := by rw [isClosed, hclosing, ← isClosed, hclosed]
  obtain ⟨t, ht, hclosing', htunnel, hkeeps⟩ := reaches_stopped hclosed' .tunnel
  refine ⟨t, hm.trans ht, closeResult?_eq_some.mpr
    ⟨by rw [hclosing', hclosing, hs], relaysEnded_iff.mpr fun p => ?_⟩⟩
  cases p with
  | direct => exact hkeeps .direct hdirect
  | tunnel => exact htunnel

section

variable (c : Stoppable σ) {s t : Mux σ κ} {acts : List (Act (Event ε κ) κ)}

include c

/-- A source that has been asked is closed. -/
theorem isClosed_of_askedAt (h : run? s acts = some t) {p : Provenance} {refused : Bool}
    (hasked : t.AskedAt p refused (observed (sideSees? p) s acts)) (g : Fed σ)
    (hg : t.side p = some g) : c.isClosed g.source = true := by
  obtain ⟨f, hf⟩ : ∃ f, s.side p = some f := by
    rw [← Option.isSome_iff_exists, ← isSome_side_of_run? h p, hg]
    rfl
  obtain ⟨g', hg', hrun⟩ := side_run h hf
  obtain rfl : g = g' := Option.some.inj (hg.symm.trans hg')
  rw [AskedAt, hg] at hasked
  exact c.isClosed_of_asked hrun hasked

/-- When the source behind the tunnel has been asked, the call can return. -/
theorem returns_of_tunnel (hopen : s.closing = .notBegun) (h : run? s acts = some t)
    {d : CloseResult} {refused : Bool} (ht : t.closing = .tunnel d refused) :
    ∃ t' r, Reaches t t' ∧ t'.closeResult? = some r := by
  have hheard := heard_of_run hopen h
  simp only [Heard, ht] at hheard
  obtain ⟨m, r, hm, hclosing, hr⟩ := reaches_answer c refused (isClosed_of_askedAt c h hheard.2)
  have hstep : Listener.step? m (.sourceClosed : Event ε κ) =
      some { m with closing := .relays (joinResults d r) } := by
    simp [Listener.step?, step?, hclosing, ht, hr]
  obtain ⟨t', ht', hresult⟩ :=
    returns_of_relays (s := { m with closing := .relays (joinResults d r) }) rfl
  exact ⟨t', _, (hm.trans (.of_step? hstep)).trans ht', hresult⟩

/-- When the direct source has been asked, the call can return. -/
theorem returns_of_direct (hopen : s.closing = .notBegun) (h : run? s acts = some t)
    {refused : Bool} (ht : t.closing = .direct refused) :
    ∃ t' r, Reaches t t' ∧ t'.closeResult? = some r := by
  have hheard := heard_of_run hopen h
  simp only [Heard, ht] at hheard
  obtain ⟨m, r, hm, hclosing, hr⟩ := reaches_answer c refused (isClosed_of_askedAt c h hheard.1)
  have hstep : Listener.step? m (.sourceClosed : Event ε κ) = some
      { (m.closeSide .tunnel).1 with closing := .tunnel r (m.closeSide .tunnel).2 } := by
    simp [Listener.step?, step?, hclosing, ht, hr]
  have hreaches := hm.trans (.of_step? hstep)
  obtain ⟨acts', hrun⟩ := hreaches.exists_run? h
  obtain ⟨t', r', ht', hresult⟩ := returns_of_tunnel c hopen hrun rfl
  exact ⟨t', r', hreaches.trans ht', hresult⟩

/-- **The call that closes can always return.** -/
theorem returns_of_run (hopen : s.closing = .notBegun) (h : run? s acts = some t)
    (hclosed : t.isClosed = true) : ∃ t' r, Reaches t t' ∧ t'.closeResult? = some r := by
  cases ht : t.closing with
  | notBegun => simp [isClosed, ht] at hclosed
  | direct refused => exact returns_of_direct c hopen h ht
  | tunnel d refused => exact returns_of_tunnel c hopen h ht
  | relays r =>
    obtain ⟨t', ht', hresult⟩ := returns_of_relays ht
    exact ⟨t', r, ht', hresult⟩

end

end Mux

end Gatehouse.Listen
