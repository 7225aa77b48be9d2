import Gatehouse.Proofs.Listen.Sources
import Gatehouse.Proofs.Listen.Wrapping

/-!
# Closing

Who closes a listener asks it once and waits for its answer, unless it refuses.  Sources and
reconnecting listeners answer after their tasks have come to an end, which they do in the end.

    calls, talk                   : what a listener is told of closing, and what it answers
    Asked, Answered               : how far one has come who closes a listener
    Closable                      : a listener that is closed from the first call on
    Stoppable                     : one that answers when its tasks have ended
    Stoppable.source, reconnecting, sum, tagged : the listeners that are
-/

namespace Gatehouse.Listen

variable {σ τ ε δ κ μ : Type}

/-! ## What is said -/

def Act.isCall : Act ε κ → Bool
  | .closeCalled | .closeRefused => true
  | _ => false

/-- Whether an act is a call of close, or what one returns. -/
def Act.isTalk : Act ε κ → Bool
  | .closeReturned _ => true
  | a => a.isCall

def calls (acts : List (Act ε κ)) : List (Act ε κ) := acts.filter Act.isCall

def talk (acts : List (Act ε κ)) : List (Act ε κ) := acts.filter Act.isTalk

theorem calls_talk (acts : List (Act ε κ)) : calls (talk acts) = calls acts := by
  rw [calls, calls, talk, List.filter_filter]
  refine List.filter_congr fun a _ => ?_
  cases a <;> rfl

theorem talk_append (acts acts' : List (Act ε κ)) :
    talk (acts ++ acts') = talk acts ++ talk acts' :=
  List.filter_append ..

theorem mem_of_mem_talk {acts : List (Act ε κ)} {a : Act ε κ} (h : a ∈ talk acts) : a ∈ acts :=
  (List.mem_filter.mp h).1

theorem mem_talk {acts : List (Act ε κ)} {a : Act ε κ} (h : a ∈ acts) (ha : a.isTalk = true) :
    a ∈ talk acts := List.mem_filter.mpr ⟨h, ha⟩

/-- A listener has been asked to close, and may have refused. -/
def Asked (refused : Bool) (acts : List (Act ε κ)) : Prop :=
  talk acts = [if refused then .closeRefused else .closeCalled]

/-- A listener has been asked to close, and this is what came of it. -/
def Answered (r : CloseResult) (acts : List (Act ε κ)) : Prop :=
  talk acts = [.closeCalled, .closeReturned r] ∨
    talk acts = [.closeRefused] ∧ r = .error .alreadyClosed

theorem Asked.length_calls {refused : Bool} {acts : List (Act ε κ)} (h : Asked refused acts) :
    (calls acts).length = 1 := by
  rw [← calls_talk, h]
  cases refused <;> rfl

theorem Answered.length_calls {r : CloseResult} {acts : List (Act ε κ)} (h : Answered r acts) :
    (calls acts).length = 1 := by
  rw [← calls_talk]
  rcases h with h | ⟨h, -⟩ <;> rw [h] <;> rfl

section

variable [Listener σ ε κ]

/-- What a call of close is to a listener. -/
def callOf (s : σ) : Act ε κ :=
  if (Listener.close? s).isSome then .closeCalled else .closeRefused

/-- What the return of the call is to it, if it did not refuse. -/
def returnOf? (refused : Bool) (s : σ) : Option (Act ε κ) :=
  if refused then none else (Listener.closeResult? s).map .closeReturned

theorem asked_callOf {acts : List (Act ε κ)} (h : talk acts = []) (s : σ) :
    Asked (Listener.close? s).isNone (acts ++ [callOf s]) := by
  rw [Asked, talk, List.filter_append]
  rw [talk] at h
  rw [h, callOf]
  cases Listener.close? s <;> rfl

theorem Asked.answered {refused : Bool} {acts : List (Act ε κ)} (h : Asked refused acts) {s : σ}
    {r : CloseResult}
    (hr : (if refused then some (.error .alreadyClosed) else Listener.closeResult? s) = some r) :
    Answered r (acts ++ (returnOf? refused s).toList) := by
  rw [Asked, talk] at h
  rw [Answered, talk, List.filter_append, h]
  cases refused with
  | true => exact .inr ⟨rfl, (Option.some.inj hr).symm⟩
  | false =>
    have hreturn : Listener.closeResult? s = some r := hr
    left
    simp [returnOf?, hreturn, Act.isTalk]

variable [DecidableEq κ]

theorem run?_callOf (s : σ) : run? s [callOf s] = some ((Listener.close? s).getD s) := by
  refine run?_cons.mpr ⟨_, ?_, rfl⟩
  cases h : Listener.close? s <;> simp [callOf, perform?, h]

theorem run?_returnOf? (refused : Bool) (s : σ) : run? s (returnOf? refused s).toList = some s := by
  unfold returnOf?
  cases refused with
  | true => rfl
  | false =>
    cases h : Listener.closeResult? s with
    | none => rfl
    | some r => exact run?_cons.mpr ⟨s, by simp [perform?, h], rfl⟩

end

/-! ## What happens by itself -/

section

variable [Listener σ ε κ] [DecidableEq κ]

/-- Tasks and the world outside can bring a listener from one state to the other. -/
def Reaches (s t : σ) : Prop := ∃ es : List ε, run? s (es.map Act.event) = some t

namespace Reaches

variable {s t u : σ}

theorem refl (s : σ) : Reaches s s := ⟨[], rfl⟩

theorem trans (h : Reaches s t) (h' : Reaches t u) : Reaches s u := by
  obtain ⟨es, ht⟩ := h
  obtain ⟨es', hu⟩ := h'
  refine ⟨es ++ es', ?_⟩
  rw [List.map_append]
  exact run?_append.mpr ⟨t, ht, hu⟩

theorem of_step? {e : ε} (h : Listener.step? s e = some t) : Reaches s t :=
  ⟨[e], run?_cons.mpr ⟨t, h, rfl⟩⟩

/-- What can be reached after a run can be reached by a run. -/
theorem exists_run? {acts : List (Act ε κ)} (h : Reaches t u) (ht : run? s acts = some t) :
    ∃ acts', run? s acts' = some u := by
  obtain ⟨es, hu⟩ := h
  exact ⟨acts ++ es.map Act.event, run?_append.mpr ⟨t, ht, hu⟩⟩

/-- Where every step of one listener can be a step of another, so can what it reaches. -/
theorem lift [Listener τ δ μ] [DecidableEq μ] (wrap : σ → τ)
    (hstep : ∀ s e t, Listener.step? s e = some t → ∃ d, Listener.step? (wrap s) d = some (wrap t))
    (h : Reaches s t) : Reaches (wrap s) (wrap t) := by
  obtain ⟨es, hes⟩ := h
  induction es generalizing s with
  | nil =>
    obtain rfl : s = t := Option.some.inj hes
    exact refl _
  | cons e es ih =>
    obtain ⟨m, hm, hrest⟩ := run?_cons.mp hes
    obtain ⟨d, hd⟩ := hstep s e m hm
    exact (of_step? hd).trans (ih hrest)

end Reaches

end

/-! ## What is done -/

/-- A listener that is closed from the first call on, and does not refuse this one. -/
structure Closable (σ : Type) {ε κ : Type} [Listener σ ε κ] [DecidableEq κ] where
  isClosed : σ → Bool
  isClosed_of_perform? : ∀ (s : σ) (a : Act ε κ) (t : σ), perform? s a = some t →
    (isClosed t = true ↔ isClosed s = true ∨ a = .closeCalled)
  accepts : ∀ s : σ, isClosed s = false → (Listener.close? s).isSome = true

namespace Closable

variable [Listener σ ε κ] [DecidableEq κ] (c : Closable σ)

theorem isClosed_of_run? {s t : σ} {acts : List (Act ε κ)} (h : run? s acts = some t) :
    c.isClosed t = true ↔ c.isClosed s = true ∨ .closeCalled ∈ acts :=
  run?_iff_mem c.isClosed_of_perform? h

/-- Only a listener that is closed refuses a call. -/
theorem isClosed_of_refused {s t : σ} (h : perform? s (.closeRefused : Act ε κ) = some t) :
    c.isClosed s = true := by
  cases hs : c.isClosed s with
  | true => rfl
  | false =>
    have hsome := c.accepts s hs
    rw [Option.isSome_iff_ne_none] at hsome
    simp [perform?, hsome] at h

/-- A listener that was open and refuses a call has been called before. -/
theorem called_of_refused {s t : σ} {acts : List (Act ε κ)} (h : run? s acts = some t)
    (hopen : c.isClosed s = false) (hrefused : .closeRefused ∈ acts) : .closeCalled ∈ acts := by
  refine (run?_induction (fun acts m => (c.isClosed m = true ↔ .closeCalled ∈ acts) ∧
    (.closeRefused ∈ acts → .closeCalled ∈ acts)) ⟨by simp [hopen], by simp⟩ ?_ h).2 hrefused
  rintro acts m a u ⟨hclosed, hcalled⟩ hu
  refine ⟨?_, fun hmem => ?_⟩
  · rw [c.isClosed_of_perform? m a u hu, hclosed, List.mem_append, List.mem_singleton, eq_comm]
  · rcases List.mem_append.mp hmem with hbefore | hnow
    · exact List.mem_append_left _ (hcalled hbefore)
    · obtain rfl := List.mem_singleton.mp hnow
      exact List.mem_append_left _ (hclosed.mp (c.isClosed_of_refused hu))

/-- Whether it refuses or not, a listener that has been asked is closed. -/
theorem isClosed_of_asked {s t : σ} {acts : List (Act ε κ)} (h : run? s acts = some t)
    {refused : Bool} (hasked : Asked refused acts) : c.isClosed t = true := by
  cases refused with
  | false =>
    have hcalled : .closeCalled ∈ talk acts := by
      rw [hasked]
      exact List.mem_cons_self ..
    exact (c.isClosed_of_run? h).mpr (.inr (mem_of_mem_talk hcalled))
  | true =>
    cases hs : c.isClosed s with
    | true => exact (c.isClosed_of_run? h).mpr (.inl hs)
    | false =>
      have hrefused : .closeRefused ∈ talk acts := by
        rw [hasked]
        exact List.mem_cons_self ..
      have hcalled := c.called_of_refused h hs (mem_of_mem_talk hrefused)
      exact (c.isClosed_of_run? h).mpr (.inr hcalled)

/-- A listener that was open answers when it returns. -/
theorem talk_of_answered {s t : σ} {acts : List (Act ε κ)} (h : run? s acts = some t)
    (hopen : c.isClosed s = false) {r : CloseResult} (hanswered : Answered r acts) :
    talk acts = [.closeCalled, .closeReturned r] := by
  rcases hanswered with htalk | ⟨htalk, -⟩
  · exact htalk
  · have hrefused : .closeRefused ∈ talk acts := by simp [htalk]
    have hcalled := mem_talk (c.called_of_refused h hopen (mem_of_mem_talk hrefused)) rfl
    simp [htalk] at hcalled

end Closable

/-- A listener that answers when its tasks have ended, which they do in the end. -/
structure Stoppable (σ : Type) {ε κ : Type} [Listener σ ε κ] [DecidableEq κ] extends
    Closable σ where
  hasEnded : σ → Bool
  hasEnded_of_perform? : ∀ (s : σ) (a : Act ε κ) (t : σ), perform? s a = some t →
    hasEnded s = true → hasEnded t = true
  hasEnded_of_closeResult? : ∀ (s : σ) (r : CloseResult), Listener.closeResult? s = some r →
    hasEnded s = true
  returns : ∀ s : σ, isClosed s = true →
    ∃ (t : σ) (r : CloseResult), Reaches s t ∧ Listener.closeResult? t = some r

namespace Stoppable

/-- When a call has returned all tasks have ended. -/
theorem hasEnded_of_returned [Listener σ ε κ] [DecidableEq κ] (c : Stoppable σ) {s t : σ}
    {acts : List (Act ε κ)} (h : run? s acts = some t) {r : CloseResult}
    (hreturned : .closeReturned r ∈ acts) : c.hasEnded t = true := by
  refine run?_induction (fun acts m => .closeReturned r ∈ acts → c.hasEnded m = true) nofun ?_ h
    hreturned
  intro acts m a u hm hu hmem
  rcases List.mem_append.mp hmem with hbefore | hnow
  · exact c.hasEnded_of_perform? m a u hu (hm hbefore)
  · obtain rfl := List.mem_singleton.mp hnow
    rw [← eq_of_closeReturned hu]
    simp only [perform?] at hu
    split at hu
    · next hr => exact c.hasEnded_of_closeResult? m r hr
    · cases hu

/-- A source has no tasks. -/
def source [DecidableEq κ] : Stoppable (Source κ) where
  isClosed := Source.closed
  isClosed_of_perform? _ _ _ := Source.closed_of_perform?
  accepts s hs := by
    simp only [Listener.close?, Source.close?, hs]
    split <;> rfl
  hasEnded _ := true
  hasEnded_of_perform? _ _ _ _ := id
  hasEnded_of_closeResult? _ _ _ := rfl
  returns s hs := by
    have hreturns : ∃ r, Listener.closeResult? s = some r := by
      simp only [Listener.closeResult?, Source.closeResult?, hs, if_true]
      split <;> exact ⟨_, rfl⟩
    obtain ⟨r, hr⟩ := hreturns
    exact ⟨s, r, .refl s, hr⟩

/-- A reconnecting listener has one task, which stops wherever it is. -/
def reconnecting [DecidableEq κ] : Stoppable (Reconnecting κ) where
  isClosed := Reconnecting.closed
  isClosed_of_perform? _ _ _ := Reconnecting.closed_of_perform?
  accepts s hs := by simp [Listener.close?, Reconnecting.close?, hs]
  hasEnded := Reconnecting.hasEnded
  hasEnded_of_perform? _ _ _ := Reconnecting.hasEnded_of_perform?
  hasEnded_of_closeResult? s r h := by
    simp only [Listener.closeResult?, Reconnecting.closeResult?] at h
    split at h
    · next hboth => exact (Bool.and_eq_true _ _ ▸ hboth).2
    · cases h
  returns s hs := by
    cases hended : s.hasEnded with
    | true =>
      exact ⟨s, .ok (), .refl s, by
        simp [Listener.closeResult?, Reconnecting.closeResult?, hs, hended]⟩
    | false =>
      have hstep : Listener.step? s .stopped = some { s with phase := .ended } := by
        cases hphase : s.phase <;>
          simp_all [Listener.step?, Reconnecting.step?, Reconnecting.hasEnded]
      exact ⟨_, .ok (), .of_step? hstep, by
        simp [Listener.closeResult?, Reconnecting.closeResult?, Reconnecting.hasEnded, hs]⟩

/-! ### Wrapped sources -/

section

variable [Listener σ ε κ] [Listener τ δ μ] [DecidableEq κ] [DecidableEq μ]

/-- What is true of a listener stays true when it is wrapped. -/
theorem of_perform?_wrap (c : Stoppable τ) (w : Wrapper σ τ) {s : τ} {t : σ} {a : Act ε κ}
    (h : perform? (w.wrap s) a = some t) : ∃ u, t = w.wrap u ∧
      (c.isClosed u = true ↔ c.isClosed s = true ∨ a = .closeCalled) ∧
      (c.hasEnded s = true → c.hasEnded u = true) := by
  obtain ⟨⟨u, rfl, hu⟩, -⟩ := w.perform h
  refine ⟨u, rfl, ?_⟩
  have hcall : (.closeCalled ∈ (w.innerAct? a).toList) ↔ a = .closeCalled := by
    cases a <;> simp [Wrapper.innerAct?]
  rw [c.isClosed_of_run? hu, hcall]
  exact ⟨Iff.rfl, fun hended => 
    run?_keeps (fun s a t hs ha => c.hasEnded_of_perform? s a t ha hs) hended hu⟩

/-- The wrapped listener is moved by moving the one behind. -/
theorem reaches_wrap (w : Wrapper σ τ) (lift : δ → ε) (hlift : ∀ d, w.inner? (lift d) = some d)
    {s u : τ} (h : Reaches s u) : Reaches (w.wrap s) (w.wrap u) := by
  refine h.lift w.wrap fun s d t ht => ⟨lift d, ?_⟩
  simp [w.step?, hlift, ht]

end

def sum [Listener σ ε κ] [Listener τ δ κ] [DecidableEq κ] (c : Stoppable σ) (d : Stoppable τ) :
    Stoppable (σ ⊕ τ) where
  isClosed := Sum.elim c.isClosed d.isClosed
  isClosed_of_perform? s a t h := by
    cases s with
    | inl s =>
      obtain ⟨u, rfl, hclosed, -⟩ := of_perform?_wrap c .inl h
      exact hclosed
    | inr s =>
      obtain ⟨u, rfl, hclosed, -⟩ := of_perform?_wrap d .inr h
      exact hclosed
  accepts s hs := by
    cases s with
    | inl s => simpa [Listener.close?] using c.accepts s hs
    | inr s => simpa [Listener.close?] using d.accepts s hs
  hasEnded := Sum.elim c.hasEnded d.hasEnded
  hasEnded_of_perform? s a t h := by
    cases s with
    | inl s =>
      obtain ⟨u, rfl, -, hended⟩ := of_perform?_wrap c .inl h
      exact hended
    | inr s =>
      obtain ⟨u, rfl, -, hended⟩ := of_perform?_wrap d .inr h
      exact hended
  hasEnded_of_closeResult? s r h := by
    cases s with
    | inl s => exact c.hasEnded_of_closeResult? s r h
    | inr s => exact d.hasEnded_of_closeResult? s r h
  returns s hs := by
    cases s with
    | inl s =>
      obtain ⟨t, r, ht, hr⟩ := c.returns s hs
      exact ⟨.inl t, r, reaches_wrap .inl .inl (fun _ => rfl) ht, hr⟩
    | inr s =>
      obtain ⟨t, r, ht, hr⟩ := d.returns s hs
      exact ⟨.inr t, r, reaches_wrap .inr .inr (fun _ => rfl) ht, hr⟩

def tagged [Listener σ ε κ] [DecidableEq κ] (c : Stoppable σ) : Stoppable (TaggedListener σ) where
  isClosed s := c.isClosed s.inner
  isClosed_of_perform? s a t h := by
    obtain ⟨u, rfl, hclosed, -⟩ := of_perform?_wrap c (.tagged s.provenance) h
    exact hclosed
  accepts s hs := by simpa [Listener.close?] using c.accepts s.inner hs
  hasEnded s := c.hasEnded s.inner
  hasEnded_of_perform? s a t h := by
    obtain ⟨u, rfl, -, hended⟩ := of_perform?_wrap c (.tagged s.provenance) h
    exact hended
  hasEnded_of_closeResult? s r h := c.hasEnded_of_closeResult? s.inner r h
  returns s hs := by
    obtain ⟨t, r, ht, hr⟩ := c.returns s.inner hs
    exact ⟨⟨t, s.provenance⟩, r, reaches_wrap (.tagged s.provenance) id (fun _ => rfl) ht, hr⟩

end Stoppable

end Gatehouse.Listen
