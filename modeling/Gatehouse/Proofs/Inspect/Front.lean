import Gatehouse.Proofs.Inspect.Cascade
import Gatehouse.Proofs.Inspect.Fates
import Gatehouse.Proofs.Listen.Merged

/-!
# How the gateway stops to listen

The gateway accepts from an inspector before a multiplexer over its sources.  Closing the inspector
closes the multiplexer, and this closes the sources, each once and one after the other, whatever
they answer.  The call returns when nothing of all that runs any more.

    Front                     : the listener that the gateway accepts from
    Front.leafActs            : what happens to the source of a side
    Front.close_cascades      : closing the front closes all there is, once
-/

namespace Gatehouse.Listen

variable {κ : Type}

def Stamped.isClosed (s : Stamped κ) : Bool :=
  match s.inner with
  | .inl s => s.closed
  | .inr r => r.closed

/-- Whether the task of a source has ended; only a reconnecting listener has one. -/
def Stamped.hasEnded (s : Stamped κ) : Bool :=
  match s.inner with
  | .inl _ => true
  | .inr r => r.hasEnded

/-- The sources of the gateway answer when their tasks have ended. -/
def Stoppable.stamped [DecidableEq κ] : Stoppable (Stamped κ) :=
  .tagged (.sum .source .reconnecting)

theorem Stoppable.isClosed_stamped [DecidableEq κ] (s : Stamped κ) :
    Stoppable.stamped.isClosed s = Stamped.isClosed s := by
  obtain ⟨s | s, p⟩ := s <;> rfl

theorem Stoppable.hasEnded_stamped [DecidableEq κ] (s : Stamped κ) :
    Stoppable.stamped.hasEnded s = Stamped.hasEnded s := by
  obtain ⟨s | s, p⟩ := s <;> rfl

end Gatehouse.Listen

namespace Gatehouse.Inspect

open Listen

variable {ρ : Type}

/-- The listener that the gateway accepts from. -/
abbrev Front (ρ : Type) := Inspector (Merged (Connection ρ)) ρ

/-- What may happen to it. -/
abbrev FrontAct (ρ : Type) :=
  Act (Inspector.Event (Mux.Event (Source.Event (Connection ρ) ⊕ Reconnecting.Event (Connection ρ))
    (Tagged (Connection ρ))) ρ) (Passed ρ)

namespace Front

variable [DecidableEq ρ]

def mergedActs (s : Front ρ) (acts : List (FrontAct ρ)) : List (MergedAct (Connection ρ)) :=
  observed Inspector.innerSees? s acts

def leafActs (s : Front ρ) (acts : List (FrontAct ρ)) (p : Provenance) :
    List (Act (Source.Event (Connection ρ) ⊕ Reconnecting.Event (Connection ρ))
      (Tagged (Connection ρ))) :=
  observed (Mux.sideSees? p) s.inner (mergedActs s acts)

section

variable {direct tunnel : Option (Stamped (Connection ρ))} {m : Merged (Connection ρ)}
  {s t : Front ρ} {acts : List (FrontAct ρ)}

/-- The multiplexer is asked to close once, and does not refuse: nobody else closes it. -/
theorem talk_mergedActs (hopen : s.isClosed = false) (hm : s.inner.isClosed = false)
    (h : run? s acts = some t) {r : CloseResult} (hr : t.closing = .pump r) :
    talk (mergedActs s acts) = [.closeCalled, .closeReturned r] := by
  have hheard : t.rear.Heard (mergedActs s acts) :=
    Inspector.heard_of_run (Inspector.isClosed_eq_false.mp hopen) h
  have hrear : t.rear.closing = .pump r := hr
  simp only [Rear.Heard, hrear] at hheard
  exact Mux.closable.talk_of_answered (Inspector.inner_run h) hm hheard

/-- When the call can return, the multiplexer has returned the same. -/
theorem closeResult?_inner (hopen : s.isClosed = false)
    (hm : Mux.ofSources direct tunnel = .ok s.inner) (h : run? s acts = some t) {r : CloseResult}
    (hr : t.closeResult? = some r) : t.inner.closeResult? = some r := by
  obtain ⟨hclosing, -⟩ := Inspector.closeResult?_eq_some.mp hr
  have htalk := talk_mergedActs hopen (Mux.isClosed_of_ofSources hm) h hclosing
  have hreturned : .closeReturned r ∈ talk (mergedActs s acts) := by simp [htalk]
  exact Mux.result_of_returned (Mux.orderly_of_ofSources hm) (Inspector.inner_run h)
    (mem_of_mem_talk hreturned)

/-- What a source of the gateway that was open has come to when it has answered. -/
theorem leaf_of_answered {p : Provenance} {f : Fed (Stamped (Connection ρ))}
    (h : run? s acts = some t) (hf : s.inner.side p = some f) {r : CloseResult}
    (hr : Answered r (leafActs s acts p)) (hleaf : Stamped.isClosed f.source = false) :
    talk (leafActs s acts p) = [.closeCalled, .closeReturned r] ∧
      ∀ g, t.inner.side p = some g → Stamped.hasEnded g.source = true := by
  obtain ⟨g, hg, hrun⟩ := Mux.side_run (Inspector.inner_run h) hf
  rw [← Stoppable.isClosed_stamped] at hleaf
  have htalk : talk (leafActs s acts p) = [.closeCalled, .closeReturned r] :=
    Stoppable.stamped.talk_of_answered hrun hleaf hr
  have hreturned : .closeReturned r ∈ talk (leafActs s acts p) := by simp [htalk]
  refine ⟨htalk, fun g' hg' => ?_⟩
  obtain rfl : g = g' := Option.some.inj (hg.symm.trans hg')
  rw [← Stoppable.hasEnded_stamped]
  exact Stoppable.stamped.hasEnded_of_returned hrun (mem_of_mem_talk hreturned)

/-- The sources have answered when the call can return, and its result is made of their answers. -/
theorem answers_of_closeResult? (hopen : s.isClosed = false)
    (hm : Mux.ofSources direct tunnel = .ok s.inner) (h : run? s acts = some t) {r : CloseResult}
    (hr : t.closeResult? = some r) : ∃ answer : Provenance → CloseResult,
      r = Mux.joinResults (answer .direct) (answer .tunnel) ∧
      ∀ p, t.inner.AnsweredAt p (answer p) (leafActs s acts p) := by
  obtain ⟨hclosing, -⟩ := Mux.closeResult?_eq_some.mp (closeResult?_inner hopen hm h hr)
  have hheard : t.inner.Heard (leafActs s acts) := Mux.heard_of_run
    (Mux.isClosed_eq_false.mp (Mux.isClosed_of_ofSources hm)) (Inspector.inner_run h)
  simp only [Mux.Heard, hclosing] at hheard
  obtain ⟨d, e, hjoin, hdirect, htunnel⟩ := hheard
  refine ⟨fun p => if p = .direct then d else e, by simpa using hjoin, fun p => ?_⟩
  cases p with
  | direct => simpa using hdirect
  | tunnel => simpa using htunnel

/-- Who has called close can always get an answer. -/
theorem returns_of_run (hopen : s.isClosed = false)
    (hm : Mux.ofSources direct tunnel = .ok s.inner) (h : run? s acts = some t)
    (hclosed : t.isClosed = true) : ∃ t' r, Reaches t t' ∧ t'.closeResult? = some r := by
  refine Inspector.returns_of_inner hclosed fun hinner => ?_
  have hrun := Inspector.inner_run h
  have hheard := Inspector.heard_of_run (Inspector.isClosed_eq_false.mp hopen) h
  have hrear : t.rear.closing = .inner false := hinner
  simp only [Rear.Heard, hrear] at hheard
  exact Mux.returns_of_run .stamped (Mux.isClosed_eq_false.mp (Mux.isClosed_of_ofSources hm)) hrun
    (Mux.closable.isClosed_of_asked hrun hheard)

/-- **Closing the front closes all there is, once.**  Of all calls of close the first one closes,
and the others are refused and change nothing.  What happens to each source is a run of it with one
call of close at most.  When the call returns, the pump and the relay tasks have ended, each source
has been called once and has answered, and the tasks of those that were open before have ended; what
it returns is the error of the direct source if there is one, and else what the source behind the
tunnel has answered.  It can return, whatever has happened before. -/
theorem close_cascades {policy : Policy} {peek : ρ → Tls.Peeked ρ}
    (hm : Mux.ofSources direct tunnel = .ok m) (hs : s = { inner := m, policy, peek })
    (h : run? s acts = some t) :
    (calls acts = [] ∨ ∃ n, calls acts = .closeCalled :: List.replicate n .closeRefused) ∧
    ((perform? t .closeCalled).isSome = true ↔ calls acts = []) ∧
    (perform? t .closeRefused = some t ↔ calls acts ≠ []) ∧
    (∀ p f, m.side p = some f → ∃ g, t.inner.side p = some g ∧
      run? f.source (leafActs s acts p) = some g.source ∧
      (calls (leafActs s acts p)).length ≤ 1) ∧
    (∀ r, .closeReturned r ∈ acts → t.closeResult? = some r) ∧
    (∀ r, t.closeResult? = some r → t.pump = .ended ∧ t.inner.relaysEnded = true ∧
      ∃ answer : Provenance → CloseResult,
        (∀ e, answer .direct = .error e → r = .error e) ∧
        (answer .direct = .ok () → r = answer .tunnel) ∧
        (∀ p, m.side p = none → answer p = .ok ()) ∧
        ∀ p f, m.side p = some f → (calls (leafActs s acts p)).length = 1 ∧
          Answered (answer p) (leafActs s acts p) ∧
          (Stamped.isClosed f.source = false →
            talk (leafActs s acts p) = [.closeCalled, .closeReturned (answer p)] ∧
            ∀ g, t.inner.side p = some g → Stamped.hasEnded g.source = true)) ∧
    (calls acts ≠ [] → ∃ t' r, Reaches t t' ∧ t'.closeResult? = some r) := by
  subst hs
  have hrun := Inspector.inner_run h
  have hcalls := Inspector.calls_of_run rfl h
  have hclosed : t.isClosed = true ↔ calls acts ≠ [] := by
    rcases hcalls with ⟨hopen, hnone⟩ | ⟨hclosed, n, hn⟩
    · simp [hopen, hnone]
    · simp [hclosed, hn]
  refine ⟨?_, ?_, ?_, ?_, ?_, ?_, ?_⟩
  · rcases hcalls with ⟨-, hnone⟩ | ⟨-, hsome⟩
    · exact .inl hnone
    · exact .inr hsome
  · rw [perform?, Inspector.isSome_close?, Bool.not_eq_true', ← Bool.not_eq_true, hclosed]
    exact not_not
  · rw [← hclosed, perform?, ← Option.not_isSome, Inspector.isSome_close?, Bool.not_not]
    split <;> simp [*]
  · intro p f hf
    obtain ⟨g, hg, hleaf⟩ := Mux.side_run hrun hf
    have hheard := Mux.heard_of_run (Mux.isClosed_eq_false.mp (Mux.isClosed_of_ofSources hm)) hrun
    exact ⟨g, hg, hleaf, hheard.length_calls (by simp [hg])⟩
  · intro r hr
    exact Inspector.result_of_returned (by simp [Rear.Orderly, Inspector.rear]) h hr
  · intro r hr
    obtain ⟨answer, hjoin, hanswers⟩ := answers_of_closeResult? rfl hm h hr
    refine ⟨(Inspector.closeResult?_eq_some.mp hr).2,
      (Mux.closeResult?_eq_some.mp (closeResult?_inner rfl hm h hr)).2, answer, ?_, ?_, ?_, ?_⟩
    · intro e he
      rw [hjoin, he, Mux.joinResults]
    · intro hok
      rw [hjoin, hok, Mux.joinResults]
    · intro p hp
      have hanswer := hanswers p
      rw [Mux.AnsweredAt, Mux.isSome_side_of_run? hrun p, hp] at hanswer
      exact hanswer
    · intro p f hf
      have hanswer := hanswers p
      rw [Mux.AnsweredAt, Mux.isSome_side_of_run? hrun p, hf] at hanswer
      replace hanswer : Answered (answer p) (leafActs _ acts p) := hanswer
      exact ⟨hanswer.length_calls, hanswer, leaf_of_answered h hf hanswer⟩
  · intro hsome
    exact returns_of_run rfl hm h (hclosed.mpr hsome)

end

/-- A source that answers every call of close with an error. -/
def stuckSource : Source (Connection ScriptedStream) :=
  { address := .empty, closeRule := .always (.error (.relay "stuck")) }

/-- A session that yields nothing. -/
def quietSession : Session (Connection ScriptedStream) := ⟨.empty, []⟩

/-- A front over these two. -/
def stuckFront : Front ScriptedStream where
  inner :=
    { direct := some { source := ⟨.inl stuckSource, .direct⟩ }
      tunnel := some { source := ⟨.inr (Reconnecting.start quietSession), .tunnel⟩ } }
  policy := { privateMode := false, publicHosts := [] }
  peek := Tls.peek ScriptedStream.read Inspector.shortHello

/-- It is closed twice; the second call is refused while the first one waits. -/
def lastCalls : List (FrontAct ScriptedStream) :=
  [.closeCalled, .event (.ofInner .sourceClosed), .closeRefused,
    .event (.ofInner (.ofSource .tunnel (.inr .stopped))), .event (.ofInner .sourceClosed),
    .event (.ofInner (.stopped .tunnel)), .event (.ofInner (.stopped .direct)),
    .event .innerClosed, .event .pumpStopped, .closeReturned (.error (.relay "stuck"))]

theorem stuckFront_closes_both :
    Mux.ofSources (some ⟨.inl stuckSource, .direct⟩)
      (some ⟨.inr (Reconnecting.start quietSession), .tunnel⟩) = .ok stuckFront.inner ∧
    ∃ t, run? stuckFront lastCalls = some t ∧
      t.closeResult? = some (.error (.relay "stuck")) ∧ t.pump = .ended ∧
      t.inner.relaysEnded = true ∧
      ∀ p, (calls (leafActs stuckFront lastCalls p)).length = 1 := by
  have hm : Mux.ofSources (some ⟨.inl stuckSource, .direct⟩)
      (some ⟨.inr (Reconnecting.start quietSession), .tunnel⟩) = .ok stuckFront.inner := rfl
  obtain ⟨t, ht⟩ : ∃ t, run? stuckFront lastCalls = some t := ⟨_, rfl⟩
  obtain ⟨-, -, -, -, hreturned, hends, -⟩ := close_cascades hm rfl ht
  have hr := hreturned (.error (.relay "stuck")) (by simp [lastCalls])
  obtain ⟨hpump, hrelays, _, -, -, -, hleaves⟩ := hends _ hr
  refine ⟨hm, t, ht, hr, hpump, hrelays, fun p => ?_⟩
  cases p with
  | direct => exact (hleaves .direct _ rfl).1
  | tunnel => exact (hleaves .tunnel _ rfl).1

end Front

end Gatehouse.Inspect
