import Gatehouse.Listen.Tagged
import Gatehouse.Proofs.Listen.Runs

/-!
# Listeners around others

Tagged listeners and sums do what the listener behind them does, and change at most what accepts
return.  Whatever happens to such a listener is a run of the one behind, so that what is true of
runs has to be proved for the latter only.

    Wrapper        : a way of putting a listener around another one
    Wrapper.run    : what happens to the outer listener is a run of the inner one
-/

namespace Gatehouse.Listen

/-- A way of putting a listener of type `σ` around one of type `τ`. -/
structure Wrapper (σ τ : Type) {ε κ δ μ : Type} [Listener σ ε κ] [Listener τ δ μ] where
  wrap : τ → σ
  /-- What the outer accept makes of what the inner one returns. -/
  give : Accepted μ → Accepted κ
  /-- What the inner accept has returned. -/
  back : Accepted κ → Accepted μ
  /-- What happens to the inner listener. -/
  inner? : ε → Option δ
  back_give : ∀ r, back (give r) = r
  step? : ∀ s e, Listener.step? (wrap s) e =
    (inner? e).bind fun d => (Listener.step? s d).map wrap
  answers : ∀ s, Listener.answers (wrap s) =
    (Listener.answers s).map fun a => (give a.1, wrap a.2)
  close? : ∀ s, Listener.close? (wrap s) = (Listener.close? s).map wrap
  closeResult? : ∀ s, Listener.closeResult? (wrap s) = Listener.closeResult? s

namespace Wrapper

variable {σ τ υ ε κ δ μ γ ν : Type} [Listener σ ε κ] [Listener τ δ μ] [Listener υ γ ν]

/-- What happens to the inner listener when something happens to the outer one. -/
def innerAct? (w : Wrapper σ τ) : Act ε κ → Option (Act δ μ)
  | .event e => (w.inner? e).map .event
  | .accepted r => some (.accepted (w.back r))
  | .abandoned => some .abandoned
  | .closeCalled => some .closeCalled
  | .closeRefused => some .closeRefused
  | .closeReturned r => some (.closeReturned r)

def innerActs (w : Wrapper σ τ) (acts : List (Act ε κ)) : List (Act δ μ) :=
  acts.filterMap w.innerAct?

theorem closeCalled_of_innerActs (w : Wrapper σ τ) {acts : List (Act ε κ)}
    (h : .closeCalled ∈ w.innerActs acts) : .closeCalled ∈ acts := by
  obtain ⟨a, ha, hinner⟩ := List.mem_filterMap.mp h
  cases a with
  | closeCalled => exact ha
  | event e =>
    obtain ⟨d, -, hd⟩ := Option.map_eq_some_iff.mp hinner
    cases hd
  | _ => cases hinner

def tagged (p : Provenance) : Wrapper (TaggedListener σ) σ where
  wrap s := ⟨s, p⟩
  give := tag p
  back r := r.map (·.connection)
  inner? := some
  back_give r := by cases r <;> rfl
  step? _ _ := rfl
  answers _ := rfl
  close? _ := rfl
  closeResult? _ := rfl

def inl [Listener τ δ κ] : Wrapper (σ ⊕ τ) σ where
  wrap := .inl
  give := id
  back := id
  inner?
    | .inl e => some e
    | .inr _ => none
  back_give _ := rfl
  step? s e := by cases e <;> rfl
  answers _ := rfl
  close? _ := rfl
  closeResult? _ := rfl

def inr [Listener τ δ κ] : Wrapper (σ ⊕ τ) τ where
  wrap := .inr
  give := id
  back := id
  inner?
    | .inl _ => none
    | .inr e => some e
  back_give _ := rfl
  step? s e := by cases e <;> rfl
  answers _ := rfl
  close? _ := rfl
  closeResult? _ := rfl

/-- One way after the other. -/
def comp (w : Wrapper σ τ) (v : Wrapper τ υ) : Wrapper σ υ where
  wrap s := w.wrap (v.wrap s)
  give r := w.give (v.give r)
  back r := v.back (w.back r)
  inner? e := (w.inner? e).bind v.inner?
  back_give r := by rw [w.back_give, v.back_give]
  step? s e := by
    rw [w.step?]
    cases w.inner? e with
    | none => rfl
    | some d =>
      show (Listener.step? (v.wrap s) d).map w.wrap = _
      rw [v.step?]
      cases hd : v.inner? d <;> simp [hd, Option.map_map, Function.comp_def]
  answers s := by rw [w.answers, v.answers, List.map_map]; rfl
  close? s := by rw [w.close?, v.close?, Option.map_map]; rfl
  closeResult? s := by rw [w.closeResult?, v.closeResult?]

variable [DecidableEq κ] [DecidableEq μ] (w : Wrapper σ τ)

/-- An accept of the outer listener is one of the inner listener. -/
theorem answered {s : τ} {t : σ} {r : Accepted κ} (h : answered? (w.wrap s) r = some t) :
    r = w.give (w.back r) ∧ ∃ u, t = w.wrap u ∧ answered? s (w.back r) = some u := by
  obtain ⟨⟨r', t'⟩, hfind, rfl⟩ := Option.map_eq_some_iff.mp h
  simp only [w.answers, List.find?_map, Option.map_eq_some_iff, Prod.mk.injEq] at hfind
  obtain ⟨⟨r₀, u⟩, hfind, rfl, rfl⟩ := hfind
  have hr : w.give r₀ = r := by simpa using List.find?_some hfind
  subst hr
  have hsame : ((fun a : Accepted κ × σ => decide (a.1 = w.give r₀)) ∘
      fun a : Accepted μ × τ => (w.give a.1, w.wrap a.2)) =
      fun a => decide (a.1 = r₀) := by
    funext a
    refine decide_eq_decide.mpr ⟨?_, congrArg w.give⟩
    intro heq
    simpa only [w.back_give] using congrArg w.back heq
  rw [hsame] at hfind
  refine ⟨by rw [w.back_give], u, rfl, ?_⟩
  rw [w.back_give, answered?, hfind]
  rfl

theorem perform {s : τ} {t : σ} {a : Act ε κ} (h : perform? (w.wrap s) a = some t) :
    (∃ u, t = w.wrap u ∧ run? s (w.innerAct? a).toList = some u) ∧
      a.result? = ((w.innerAct? a).bind Act.result?).map w.give := by
  have hone : ∀ {b : Act δ μ} {u : τ}, perform? s b = some u → run? s [b] = some u :=
    fun h => run?_cons.mpr ⟨_, h, rfl⟩
  cases a with
  | event e =>
    simp only [perform?, w.step?] at h
    obtain ⟨d, hd, h⟩ := Option.bind_eq_some_iff.mp h
    obtain ⟨u, hu, rfl⟩ := Option.map_eq_some_iff.mp h
    simp only [innerAct?, hd, Option.map_some, Option.toList_some]
    exact ⟨⟨u, rfl, hone hu⟩, rfl⟩
  | accepted r =>
    obtain ⟨hr, u, rfl, hu⟩ := w.answered h
    exact ⟨⟨u, rfl, hone hu⟩, congrArg some hr⟩
  | abandoned =>
    cases h
    exact ⟨⟨s, rfl, hone rfl⟩, rfl⟩
  | closeCalled =>
    simp only [perform?, w.close?] at h
    obtain ⟨u, hu, rfl⟩ := Option.map_eq_some_iff.mp h
    exact ⟨⟨u, rfl, hone hu⟩, rfl⟩
  | closeRefused =>
    simp only [perform?, w.close?, Option.isNone_map] at h
    split at h
    · next hnone =>
      cases h
      exact ⟨⟨s, rfl, hone (if_pos hnone)⟩, rfl⟩
    · cases h
  | closeReturned r =>
    simp only [perform?, w.closeResult?] at h
    split at h
    · next hresult =>
      cases h
      exact ⟨⟨s, rfl, hone (if_pos hresult)⟩, rfl⟩
    · cases h

/-- **What happens to the outer listener is a run of the inner one**, and accepts return what they
make of its results. -/
theorem run {s : τ} {t : σ} {acts : List (Act ε κ)} (h : run? (w.wrap s) acts = some t) :
    (∃ u, t = w.wrap u ∧ run? s (w.innerActs acts) = some u) ∧
      results acts = (results (w.innerActs acts)).map w.give := by
  induction acts generalizing s with
  | nil =>
    obtain rfl : w.wrap s = t := Option.some.inj h
    exact ⟨⟨s, rfl, rfl⟩, rfl⟩
  | cons a acts ih =>
    obtain ⟨m, hm, hrest⟩ := run?_cons.mp h
    obtain ⟨⟨u, rfl, hfirst⟩, hresult⟩ := w.perform hm
    obtain ⟨⟨v, rfl, hlater⟩, hresults⟩ := ih hrest
    have hcons : w.innerActs (a :: acts) = (w.innerAct? a).toList ++ w.innerActs acts := by
      cases ha : w.innerAct? a <;> simp [innerActs, ha]
    refine ⟨⟨v, rfl, ?_⟩, ?_⟩
    · rw [hcons]
      exact run?_append.mpr ⟨u, hfirst, hlater⟩
    · rw [hcons]
      simp only [results] at hresults ⊢
      rw [List.filterMap_cons, hresult, hresults, List.filterMap_append, List.map_append]
      cases w.innerAct? a with
      | none => rfl
      | some b => cases hb : b.result? <;> simp [hb]

end Wrapper

end Gatehouse.Listen
