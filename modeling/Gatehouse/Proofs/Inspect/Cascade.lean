import Gatehouse.Proofs.Inspect.Rear
import Gatehouse.Proofs.Listen.Cascade

/-!
# How an inspector is closed

The call that closes an inspector closes the listener behind it, once, and returns what that one
answers, when it has and the pump has ended.  All other calls are refused.

    Inspector.innerSees?          : what a step is to the listener behind, closing included
    Inspector.inner_run           : what happens behind is a run of that listener
    Rear.Heard                    : what it has heard of closing
    Inspector.calls_of_run        : one call closes, and all others are refused
    Inspector.result_of_returned  : what has been returned stays the result
    Inspector.returns_of_inner    : the call that closes can return if that behind can
-/

namespace Gatehouse.Inspect

open Listen

variable {σ ε ρ : Type}

/-! ## What the listener behind sees -/

section

variable [Listener σ ε (Tagged (Connection ρ))]

/-- What a step is to the listener behind: the pump accepts from it, and who closes the inspector
closes it. -/
def Rear.sees? (b : Rear σ) :
    Act (Inspector.Event ε ρ) (Passed ρ) → Option (Act ε (Tagged (Connection ρ)))
  | .event (.ofInner e) => some (.event e)
  | .event (.yielded r) => some (.accepted r)
  | .closeCalled => some (callOf b.inner)
  | .event .innerClosed =>
    match b.closing with
    | .inner refused => returnOf? refused b.inner
    | _ => none
  | _ => none

/-- What a step is to the listener behind. -/
def Inspector.innerSees? (s : Inspector σ ρ) (a : Act (Inspector.Event ε ρ) (Passed ρ)) :
    Option (Act ε (Tagged (Connection ρ))) := s.rear.sees? a

/-- What the listener behind has been told of closing, and has answered, as far as it has come. -/
def Rear.Heard (b : Rear σ) (told : List (Act ε (Tagged (Connection ρ)))) : Prop :=
  match b.closing with
  | .notBegun => talk told = []
  | .inner refused => Asked refused told
  | .pump r => Answered r told

theorem Rear.sees?_of_isApart (b : Rear σ) {a : Act (Inspector.Event ε ρ) (Passed ρ)}
    (ha : Inspector.isApart a = true) : b.sees? a = none := by
  cases a with
  | event e => cases e <;> first | rfl | cases ha
  | accepted r => rfl
  | abandoned => rfl
  | _ => cases ha

variable [DecidableEq ρ] {b d : Rear σ} {a : Act (Inspector.Event ε ρ) (Passed ρ)}

theorem Rear.Goes.inner_run (h : b.Goes a d) : run? b.inner (b.sees? a).toList = some d.inner := by
  have hone : ∀ {u : σ} {x : Act ε (Tagged (Connection ρ))}, perform? b.inner x = some u →
      run? b.inner [x] = some u := fun h => run?_cons.mpr ⟨_, h, rfl⟩
  cases h with
  | apart ha => rw [b.sees?_of_isApart ha]; rfl
  | ofInner hu => exact hone hu
  | pumped _ hu => exact hone hu
  | pumpEnded _ hu => exact hone hu
  | errorPumped _ _ hu => exact hone hu
  | called _ hu => simpa [Rear.sees?, hu] using run?_callOf b.inner
  | calledInVain _ hu => simpa [Rear.sees?, hu] using run?_callOf b.inner
  | innerClosed hclosing =>
    simpa only [Rear.sees?, hclosing] using run?_returnOf? false b.inner
  | innerRefused hclosing =>
    simpa only [Rear.sees?, hclosing] using run?_returnOf? true b.inner
  | _ => rfl

/-- **What happens behind an inspector is a run of the listener there**, closing included. -/
theorem Inspector.inner_run {s t : Inspector σ ρ} {acts : List (Act (Event ε ρ) (Passed ρ))}
    (h : run? s acts = some t) : run? s.inner (observed innerSees? s acts) = some t.inner := by
  have hstep : ∀ (s : Inspector σ ρ) (u : σ) (a : Act (Event ε ρ) (Passed ρ)) (t : Inspector σ ρ),
      s.inner = u → True → perform? s a = some t →
      ∃ v, t.inner = v ∧ run? u (innerSees? s a).toList = some v := by
    rintro s _ a t rfl - h
    exact ⟨_, rfl, (rear_goes h).inner_run⟩
  obtain ⟨_, rfl, hrun⟩ := run?_observes hstep rfl (fun _ _ => trivial) h
  exact hrun

/-! ## What it hears of closing -/

theorem Rear.Heard.step {told : List (Act ε (Tagged (Connection ρ)))} (hb : b.Heard told)
    (h : b.Goes a d) : d.Heard (told ++ (b.sees? a).toList) := by
  -- Most steps leave closing where it is, and say nothing of it.
  have hstill : ∀ {d : Rear σ}, d.closing = b.closing →
      talk (b.sees? a).toList = ([] : List (Act ε (Tagged (Connection ρ)))) →
      d.Heard (told ++ (b.sees? a).toList) := by
    intro d hclosing hquiet
    have htalk : talk (told ++ (b.sees? a).toList) = talk told := by
      rw [talk_append, hquiet, List.append_nil]
    unfold Rear.Heard Asked Answered at hb ⊢
    simpa only [hclosing, htalk] using hb
  cases h with
  | apart ha => exact hstill rfl (by rw [b.sees?_of_isApart ha]; rfl)
  | called hopen hu =>
    simp only [Rear.Heard, hopen] at hb
    simpa [Rear.Heard, Rear.sees?, hu] using asked_callOf hb b.inner
  | calledInVain hopen hu =>
    simp only [Rear.Heard, hopen] at hb
    simpa [Rear.Heard, Rear.sees?, hu] using asked_callOf hb b.inner
  | innerClosed hclosing hr =>
    simp only [Rear.Heard, hclosing] at hb
    simpa only [Rear.Heard, Rear.sees?, hclosing] using hb.answered (s := b.inner) hr
  | innerRefused hclosing =>
    simp only [Rear.Heard, hclosing] at hb
    simpa only [Rear.Heard, Rear.sees?, hclosing] using hb.answered (s := b.inner) rfl
  | _ => exact hstill rfl rfl

namespace Inspector

variable {s t : Inspector σ ρ} {acts : List (Act (Event ε ρ) (Passed ρ))}

theorem heard_of_run (hopen : s.closing = .notBegun) (h : run? s acts = some t) :
    t.rear.Heard (observed innerSees? s acts) := by
  refine (run?_induction (fun acts m => run? s acts = some m ∧
    m.rear.Heard (observed innerSees? s acts)) ⟨rfl, ?_⟩ ?_ h).2
  · have hrear : s.rear.closing = .notBegun := hopen
    simp [Rear.Heard, hrear, observed, talk]
  · rintro acts m a u ⟨hm, hheard⟩ hu
    refine ⟨run?_append.mpr ⟨m, hm, run?_cons.mpr ⟨u, hu, rfl⟩⟩, ?_⟩
    rw [observed_concat _ hm hu]
    exact hheard.step (rear_goes hu)

/-! ## The calls -/

end Inspector

/-- A call closes an inspector that is open, and is refused by one that is not. -/
theorem Rear.Goes.of_isCall (h : b.Goes a d) (ha : a.isCall = true) :
    a = .closeCalled ∧ b.closing = .notBegun ∨ a = .closeRefused ∧ b.closing ≠ .notBegun := by
  cases h with
  | @apart a hapart => cases a <;> simp_all [Inspector.isApart, Act.isCall]
  | called hopen => exact .inl ⟨rfl, hopen⟩
  | calledInVain hopen => exact .inl ⟨rfl, hopen⟩
  | refused hclosed => exact .inr ⟨rfl, hclosed⟩
  | _ => cases ha

namespace Inspector

variable {s t : Inspector σ ρ} {acts : List (Act (Event ε ρ) (Passed ρ))}

/-- **One call closes an inspector, and all others are refused.** -/
theorem calls_of_run (hopen : s.isClosed = false) (h : run? s acts = some t) :
    t.isClosed = false ∧ calls acts = [] ∨
      t.isClosed = true ∧ ∃ n, calls acts = .closeCalled :: List.replicate n .closeRefused := by
  refine run?_induction (fun acts m => m.isClosed = false ∧ calls acts = [] ∨
    m.isClosed = true ∧ ∃ n, calls acts = .closeCalled :: List.replicate n .closeRefused)
    (.inl ⟨hopen, rfl⟩) ?_ h
  intro acts m a u hm hu
  have hclosed := isClosed_of_perform? m a u hu
  cases ha : a.isCall with
  | false =>
    have hsame : calls (acts ++ [a]) = calls acts := by simp [calls, ha]
    have hne : a ≠ .closeCalled := by
      rintro rfl
      cases ha
    have hstays : u.isClosed = m.isClosed := Bool.eq_iff_iff.mpr (by simpa [hne] using hclosed)
    rw [hsame, hstays]
    exact hm
  | true =>
    have hmore : calls (acts ++ [a]) = calls acts ++ [a] := by simp [calls, ha]
    right
    rcases hm with ⟨hbegin, hnone⟩ | ⟨hbegun, n, hn⟩
    · obtain ⟨rfl, -⟩ | ⟨-, hnot⟩ := (rear_goes hu).of_isCall ha
      · exact ⟨hclosed.mpr (.inr rfl), 0, by rw [hmore, hnone]; rfl⟩
      · exact absurd (isClosed_eq_false.mp hbegin) hnot
    · obtain ⟨-, hnot⟩ | ⟨rfl, -⟩ := (rear_goes hu).of_isCall ha
      · exact absurd hnot (isClosed_eq_true.mp hbegun)
      · exact ⟨hclosed.mpr (.inl hbegun), n + 1, by
          rw [hmore, hn, List.replicate_succ', List.cons_append]⟩

theorem isSome_close? (s : Inspector σ ρ) : (Listener.close? s).isSome = !s.isClosed := by
  simp only [Listener.close?, close?]
  cases s.isClosed with
  | true => rfl
  | false => cases Listener.close? s.inner <;> rfl

/-! ## The result -/

/-- **What has been returned stays the result.** -/
theorem result_of_returned (hs : s.rear.Orderly) (h : run? s acts = some t) {r : CloseResult}
    (hr : .closeReturned r ∈ acts) : t.closeResult? = some r := by
  have hrear : t.rear.Orderly ∧ (.closeReturned r ∈ acts →
      t.rear.closing = .pump r ∧ t.rear.pump = .ended) := by
    refine run?_induction (fun acts m => m.rear.Orderly ∧ (.closeReturned r ∈ acts →
      m.rear.closing = .pump r ∧ m.rear.pump = .ended)) ⟨hs, by simp⟩ ?_ h
    rintro acts m a u ⟨horderly, hresult⟩ hu
    have hgoes := rear_goes hu
    refine ⟨hgoes.keeps_orderly horderly, fun hmem => ?_⟩
    rcases List.mem_append.mp hmem with hbefore | hnow
    · obtain ⟨hclosing, hended⟩ := hresult hbefore
      refine ⟨?_, hgoes.keeps_ended horderly hended⟩
      generalize m.rear = b at hgoes hclosing
      generalize u.rear = d at hgoes ⊢
      cases hgoes with
      | called hopen => simp [hclosing] at hopen
      | calledInVain hopen => simp [hclosing] at hopen
      | innerClosed hnot => simp [hclosing] at hnot
      | innerRefused hnot => simp [hclosing] at hnot
      | _ => exact hclosing
    · obtain rfl := List.mem_singleton.mp hnow
      rw [← eq_of_closeReturned hu] at hgoes ⊢
      generalize m.rear = b at hgoes ⊢
      cases hgoes with
      | apart ha => cases ha
      | returned hclosing hended => exact ⟨hclosing, hended⟩
  exact closeResult?_eq_some.mpr (hrear.2 hr)

/-! ## Closing comes to its end -/

/-- The listener behind is moved where it is. -/
theorem reaches_inner {s : Inspector σ ρ} {u : σ} (h : Reaches s.inner u) :
    Reaches s { s with inner := u } :=
  h.lift (fun v => { s with inner := v }) fun v e w hw =>
    ⟨.ofInner e, by simp [Listener.step?, step?, hw]⟩

/-- When the listener behind has answered, the call can return after the pump has stopped. -/
theorem returns_of_pump {s : Inspector σ ρ} {r : CloseResult} (hs : s.closing = .pump r) :
    ∃ t, Reaches s t ∧ t.closeResult? = some r := by
  by_cases hended : s.pump = .ended
  · exact ⟨s, .refl s, closeResult?_eq_some.mpr ⟨hs, hended⟩⟩
  · have hclosed : s.isClosed = true := isClosed_eq_true.mpr (by simp [hs])
    have hstep : Listener.step? s (.pumpStopped : Event ε ρ) =
        some { s with pump := .ended, errors := s.errors.withdraw () } := by
      simp [Listener.step?, step?, hclosed, hended]
    exact ⟨_, .of_step? hstep, closeResult?_eq_some.mpr ⟨hs, rfl⟩⟩

/-- **The call that closes can return** if that of the listener behind can. -/
theorem returns_of_inner {s : Inspector σ ρ} (hclosed : s.isClosed = true)
    (hinner : s.closing = .inner false →
      ∃ u r, Reaches s.inner u ∧ Listener.closeResult? u = some r) :
    ∃ t r, Reaches s t ∧ t.closeResult? = some r := by
  cases hs : s.closing with
  | notBegun => simp [isClosed, hs] at hclosed
  | inner refused =>
    cases refused with
    | true =>
      have hstep : Listener.step? s (.innerClosed : Event ε ρ) =
          some { s with closing := .pump (.error .alreadyClosed) } := by
        simp [Listener.step?, step?, hs]
      obtain ⟨t, ht, hresult⟩ :=
        returns_of_pump (s := { s with closing := .pump (.error .alreadyClosed) }) rfl
      exact ⟨t, _, (Reaches.of_step? hstep).trans ht, hresult⟩
    | false =>
      obtain ⟨u, r, hu, hr⟩ := hinner hs
      have hstep : Listener.step? ({ s with inner := u } : Inspector σ ρ)
          (.innerClosed : Event ε ρ) = some { s with inner := u, closing := .pump r } := by
        simp [Listener.step?, step?, hs, hr]
      obtain ⟨t, ht, hresult⟩ :=
        returns_of_pump (s := { s with inner := u, closing := .pump r }) rfl
      exact ⟨t, r, ((reaches_inner hu).trans (.of_step? hstep)).trans ht, hresult⟩
  | pump r =>
    obtain ⟨t, ht, hresult⟩ := returns_of_pump hs
    exact ⟨t, r, ht, hresult⟩

end Inspector

end

end Gatehouse.Inspect
