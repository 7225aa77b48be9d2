import Gatehouse.Listen.Source
import Gatehouse.Proofs.Inspect.Tidy
import Gatehouse.Proofs.Tls.Replaying

/-!
# The fates of inspected connections

A connection has one fate, which its own octets and the policy lead to, unless time runs out or the
inspector is closed.  Others have no part in it, in whichever order the tasks go on.

    Inspector.tidy_of_run   : all is in order in every run
    Inspector.one_fate      : each connection has one fate, and others have no part in it
-/

namespace Gatehouse.Inspect

open Listen

variable {σ ε ρ : Type}

namespace Inspector

section

variable [Listener σ ε (Tagged (Connection ρ))] [DecidableEq ρ]

/-- In every run all is in order, and the connections taken are those that were yielded. -/
theorem tidy_of_run {inner : σ} {policy : Policy} {peek : ρ → Tls.Peeked ρ} {t : Inspector σ ρ}
    {acts : List (Act (Event ε ρ) (Passed ρ))}
    (h : run? ({ inner, policy, peek } : Inspector σ ρ) acts = some t) :
    t.policy = policy ∧ t.peek = peek ∧
      t.taken.map (·.connection) = acts.filterMap yield? ∧
      ∃ js, t.Tidy js (Listen.delivered acts) := by
  refine run?_induction (fun acts t => t.policy = policy ∧ t.peek = peek ∧
      t.taken.map (·.connection) = acts.filterMap yield? ∧ ∃ js, t.Tidy js (Listen.delivered acts))
    ⟨rfl, rfl, rfl, [], tidy_new⟩ ?_ h
  rintro acts s a t ⟨hpolicy, hpeek, htaken, js, htidy⟩ hstep
  have hwaiting : ∀ e ∈ s.connections.toList, s.fate? e.1 = some .waiting := fun e he =>
    (htidy.waiting e.1).mp (List.mem_map.mpr ⟨e, he, rfl⟩)
  have hsteps := steps_of_perform? hstep hwaiting
  obtain ⟨js', htidy'⟩ := htidy.step hsteps
  refine ⟨hsteps.1.policy.trans hpolicy, hsteps.1.peek.trans hpeek, ?_, js', ?_⟩
  · rw [hsteps.1.taken, htaken, List.filterMap_append]
    cases ha : yield? a <;> simp [ha]
  · rw [delivered_concat]
    exact htidy'

/-- A connection that can be decided is, whatever becomes of the others. -/
theorem decides {s : Inspector σ ρ} {i : Nat} {c : Tagged (Connection ρ)}
    {d : Except Tls.HelloError Decision} (hc : s.connection? i = some c)
    (hf : s.fate? i = some .peeking) (hd : ownDecision s.policy s.peek c = some d) :
    ∃ t f, step? s (.peeked i) = some t ∧ t.fate? i = some f ∧ f.decision? = some d := by
  obtain ⟨x, hx, rfl⟩ := Option.map_eq_some_iff.mp hc
  have hpeeking : x.fate = .peeking := by simpa [fate?, hx] using hf
  have hstep : step? s (.peeked i) = s.judged i x.connection := by
    simp [step?, hx, hpeeking]
  have hset : ∀ f, (s.setFate i f).fate? i = some f := fun f => by
    rw [fate?_setFate hf, if_pos rfl]
  rw [← decision_judge] at hd
  rw [hstep, judged]
  cases hjudge : judge s.policy s.peek x.connection with
  | undecided =>
    rw [hjudge] at hd
    cases hd
  | failed error =>
    rw [hjudge] at hd
    exact ⟨_, _, rfl, hset _, hd⟩
  | rejected =>
    rw [hjudge] at hd
    exact ⟨_, _, rfl, hset _, hd⟩
  | forwarded address stream =>
    rw [hjudge] at hd
    exact ⟨_, _, rfl, hset _, hd⟩
  | passed p =>
    rw [hjudge] at hd
    exact ⟨_, _, rfl, hset _, hd⟩

/-- **Each connection has one fate, and it is its own.**  In every run the connections taken are
those that were yielded, and each has the fate that its own octets and the policy lead to, unless
time ran out or the inspector was closed.  Those that wait are in the channel, each once; those that
are delivered are returned by one accept each, with their peer, their provenance and all of their
octets.  A connection can be decided whatever becomes of the others, and in another run, among other
connections, it is decided in the same way. -/
theorem one_fate {α : Type} {inner : σ} {policy : Policy} {read : ReadFrom ρ} {a : Tls.Acceptor α}
    {t : Inspector σ ρ} {acts : List (Act (Event ε ρ) (Passed ρ))}
    (h : run? ({ inner, policy, peek := Tls.peek read a } : Inspector σ ρ) acts = some t) :
    t.taken.map (·.connection) = acts.filterMap yield? ∧
    (∀ i c f d, t.connection? i = some c → t.fate? i = some f → f.decision? = some d →
      ownDecision policy (Tls.peek read a) c = some d) ∧
    (∀ i, t.fate? i = some (.dropped .closing) → t.isClosed = true) ∧
    (t.places.Nodup ∧ ∀ i, i ∈ t.places ↔ t.fate? i = some .waiting) ∧
    (∃ js : List Nat, js.Nodup ∧ (∀ i, i ∈ js ↔ t.fate? i = some .delivered) ∧
      List.Forall₂ (fun i p => ∃ c, t.connection? i = some c ∧
        Passes policy (Tls.peek read a) c p ∧
        Tls.Replays read c.connection.stream p.connection.stream) js (Listen.delivered acts)) ∧
    (∀ i c d, t.connection? i = some c → t.fate? i = some .peeking →
      ownDecision policy (Tls.peek read a) c = some d →
      ∃ t' f, step? t (.peeked i) = some t' ∧ t'.fate? i = some f ∧ f.decision? = some d) ∧
    (∀ (σ' ε' : Type) [Listener σ' ε' (Tagged (Connection ρ))] (inner' : σ')
      (t' : Inspector σ' ρ) (acts' : List (Act (Event ε' ρ) (Passed ρ))),
      run? ({ inner := inner', policy, peek := Tls.peek read a } : Inspector σ' ρ) acts' =
        some t' →
      ∀ i j c f f' d d', t.connection? i = some c → t'.connection? j = some c →
        t.fate? i = some f → t'.fate? j = some f' → f.decision? = some d →
        f'.decision? = some d' → d = d') := by
  obtain ⟨hpolicy, hpeek, htaken, js, htidy⟩ := tidy_of_run h
  have hdecided := htidy.decided
  rw [hpolicy, hpeek] at hdecided
  refine ⟨htaken, hdecided, htidy.closing, ⟨htidy.nodup, htidy.waiting⟩,
    ⟨js, htidy.once, htidy.delivered, htidy.handedOn.imp ?_⟩, ?_, ?_⟩
  · rintro i p ⟨c, hc, hpasses⟩
    rw [hpolicy, hpeek] at hpasses
    obtain ⟨hello, -, hhello, -⟩ := id hpasses
    exact ⟨c, hc, hpasses, Tls.replays_of_peek hhello⟩
  · intro i c d hc hf hd
    rw [← hpolicy, ← hpeek] at hd
    exact decides hc hf hd
  · intro σ' ε' _ inner' t' acts' h' i j c f f' d d' hc hc' hf hf' hd hd'
    obtain ⟨hpolicy', hpeek', -, js', htidy'⟩ := tidy_of_run h'
    have hd'' := htidy'.decided j c f' d' hc' hf' hd'
    rw [hpolicy', hpeek', hdecided i c f d hc hf hd] at hd''
    exact Option.some.inj hd''

end

/-- A visitor who comes through the relay. -/
abbrev Visitor := Tagged (Connection ScriptedStream)

def visitor (port : Nat) (segments : List Segment) : Visitor :=
  ⟨⟨{ ip := .v4 .loopback, port }, ⟨segments, true, []⟩⟩, .tunnel⟩

/-- An acceptor for which a hello is one octet. -/
def shortHello : Tls.Acceptor Octets :=
  .ofFunction fun bs => if bs.head? = some 22 then .hello ⟨some "b.example", []⟩ else .invalid

/-- One visitor is silent, one asks for a public host, and one does not speak TLS. -/
def threeVisitors : Inspector (Source Visitor) ScriptedStream where
  inner :=
    { address := .empty
      incoming :=
        [.ok (visitor 1 []), .ok (visitor 2 [.data [22, 23]]), .ok (visitor 3 [.data [71]])] }
  policy := { privateMode := true, publicHosts := ["b.example"] }
  peek := Tls.peek ScriptedStream.read shortHello

/-- They are looked at in another order than they came, and an accept returns before the close. -/
def visits : List (Act (Event (Source.Event Visitor) ScriptedStream) (Passed ScriptedStream)) :=
  [.event (.yielded (.ok (visitor 1 []))), .event (.yielded (.ok (visitor 2 [.data [22, 23]]))),
    .event (.yielded (.ok (visitor 3 [.data [71]]))), .event (.peeked 2), .event (.peeked 1),
    .abandoned, .event .admitted,
    .accepted (.ok ⟨⟨(visitor 2 []).connection.peer, ⟨[22, 23], ⟨[], true, []⟩⟩⟩, .tunnel⟩),
    .closeCalled, .event (.stopped 0)]

theorem second_of_three_delivered : ∃ t, run? threeVisitors visits = some t ∧
    ∃ js : List Nat, js.Nodup ∧ (∀ i, i ∈ js ↔ t.fate? i = some .delivered) ∧
      List.Forall₂ (fun i p => ∃ c, t.connection? i = some c ∧
        Passes threeVisitors.policy (Tls.peek ScriptedStream.read shortHello) c p ∧
        Tls.Replays ScriptedStream.read c.connection.stream p.connection.stream) js
        (Listen.delivered visits) := by
  have hrun : (run? threeVisitors visits).isSome = true := by decide +kernel
  obtain ⟨t, ht⟩ := Option.isSome_iff_exists.mp hrun
  obtain ⟨-, -, -, -, hdelivered, -⟩ := one_fate ht
  exact ⟨t, ht, hdelivered⟩

end Inspector

end Gatehouse.Inspect
