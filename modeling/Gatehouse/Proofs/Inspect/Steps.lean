import Gatehouse.Inspect.Inspector
import Gatehouse.Proofs.Listen.Runs

/-!
# What each event does with the inspected connections

Every connection that the inspector takes has a task of its own.  Each event moves one connection at
most, and what it moves it to is what the octets of that connection and the policy say.

    ownDecision                   : what a connection comes to by its own octets
    Inspector.Goes                : how a step moves a connection
    Inspector.steps_of_perform?   : every step moves a connection in one of these ways
-/

namespace Gatehouse.Inspect

open Listen

variable {σ ε ρ : Type}

/-- The decision for a connection, or why there is none; nothing if it is silent too early. -/
def ownDecision (policy : Policy) (peek : ρ → Tls.Peeked ρ) (c : Tagged (Connection ρ)) :
    Option (Except Tls.HelloError Decision) :=
  match peek c.connection.stream with
  | .pending => none
  | .failed error => some (.error error)
  | .hello hello _ => some (.ok (policy.decide c.provenance hello))

/-- The decision that a fate follows from; one that did not wait for it tells of none. -/
def Fate.decision? : Fate ρ → Option (Except Tls.HelloError Decision)
  | .peeking => none
  | .connecting address _ => some (.ok (.forward address))
  | .joined address => some (.ok (.forward address))
  | .parted address => some (.ok (.forward address))
  | .waiting => some (.ok .pass)
  | .delivered => some (.ok .pass)
  | .dropped (.failed error) => some (.error error)
  | .dropped .rejected => some (.ok .reject)
  | .dropped .timedOut => none
  | .dropped .closing => none

/-- A fate for which the channel does not matter. -/
def Fate.IsApart (f : Fate ρ) : Prop := f ≠ .waiting ∧ f ≠ .delivered

/-- The form in which a connection is passed on: it keeps its peer and its provenance. -/
def Passes (policy : Policy) (peek : ρ → Tls.Peeked ρ) (c : Tagged (Connection ρ))
    (p : Passed ρ) : Prop :=
  ∃ hello, policy.decide c.provenance hello = .pass ∧
    peek c.connection.stream = .hello hello p.connection.stream ∧
    p.connection.peer = c.connection.peer ∧ p.provenance = c.provenance

namespace Inspector

/-- The fate that a judgement leads to at first. -/
def Judged.fate? : Judged ρ → Option (Fate ρ)
  | .undecided => none
  | .failed error => some (.dropped (.failed error))
  | .rejected => some (.dropped .rejected)
  | .forwarded address stream => some (.connecting address stream)
  | .passed _ => some .waiting

/-- A judgement is the decision for the connection. -/
theorem decision_judge (policy : Policy) (peek : ρ → Tls.Peeked ρ) (c : Tagged (Connection ρ)) :
    (judge policy peek c).fate?.bind Fate.decision? = ownDecision policy peek c := by
  unfold judge ownDecision
  cases peek c.connection.stream with
  | pending => rfl
  | failed error => rfl
  | hello hello stream =>
    dsimp only
    cases policy.decide c.provenance hello <;> rfl

theorem passes_of_judge {policy : Policy} {peek : ρ → Tls.Peeked ρ} {c : Tagged (Connection ρ)}
    {p : Passed ρ} (h : judge policy peek c = .passed p) : Passes policy peek c p := by
  unfold judge at h
  split at h
  · cases h
  · cases h
  · next hello stream hpeek =>
    split at h
    · cases h
    · cases h
    · next hpass =>
      cases h
      exact ⟨hello, hpass, hpeek, rfl, rfl⟩

/-! ## Steps -/

def yield? : Act (Event ε ρ) (Passed ρ) → Option (Tagged (Connection ρ))
  | .event (.yielded (.ok c)) => some c
  | _ => none

/-- What never changes, and what never changes back. -/
structure Keeps (s t : Inspector σ ρ) (a : Act (Event ε ρ) (Passed ρ)) : Prop where
  policy : t.policy = s.policy
  peek : t.peek = s.peek
  closed : s.isClosed = true → t.isClosed = true
  taken : t.taken.map (·.connection) = s.taken.map (·.connection) ++ (yield? a).toList

theorem Keeps.connection {s t : Inspector σ ρ} {a : Act (Event ε ρ) (Passed ρ)}
    (h : Keeps s t a) {i : Nat} {c : Tagged (Connection ρ)} (hc : s.connection? i = some c) :
    t.connection? i = some c := by
  rw [connection?, ← List.getElem?_map] at hc ⊢
  rw [h.taken, List.getElem?_append_left (List.getElem?_eq_some_iff.mp hc).1]
  exact hc

/-- The fate of the connection at a place changes, or it is the first that the connection has. -/
def Turns (s t : Inspector σ ρ) (i : Nat) (f : Fate ρ) : Prop :=
  ∀ j, t.fate? j = if j = i then some f else s.fate? j

/-- How a step moves a connection, if it moves any. -/
inductive Goes (s t : Inspector σ ρ) : Act (Event ε ρ) (Passed ρ) → Prop where
  | idle {a : Act (Event ε ρ) (Passed ρ)} (hfate : ∀ i, t.fate? i = s.fate? i)
      (hchannel : t.connections = s.connections)
      (hresult : a.result?.bind Listen.connection? = none) : Goes s t a
  /-- A connection comes, or its task goes on by itself. -/
  | alone {e : Event ε ρ} (i : Nat) (f : Fate ρ) (hbefore : ∀ g, s.fate? i = some g → g.IsApart)
      (hafter : f.IsApart) (hfate : Turns s t i f) (hchannel : t.connections = s.connections)
      (hdecision : ∀ c d, t.connection? i = some c → f.decision? = some d →
        ownDecision s.policy s.peek c = some d ∨ ∃ g, s.fate? i = some g ∧ g.decision? = some d)
      (hclosing : f = .dropped .closing → t.isClosed = true) : Goes s t (.event e)
  /-- It is passed on. -/
  | passed {e : Event ε ρ} {i : Nat} {c : Tagged (Connection ρ)} {p : Passed ρ}
      (hbefore : s.fate? i = some .peeking) (hc : s.connection? i = some c)
      (hpasses : Passes s.policy s.peek c p) (hfate : Turns s t i .waiting)
      (hchannel : t.connections = s.connections.offer i (i, p)) : Goes s t (.event e)
  | admitted {e : Event ε ρ} {i : Nat} (hfate : ∀ i, t.fate? i = s.fate? i)
      (hchannel : s.connections.admit? = some (i, t.connections)) : Goes s t (.event e)
  /-- It is given up before it gets into the channel. -/
  | withdrawn {e : Event ε ρ} {i : Nat} (hbefore : i ∈ s.connections.waiting.map (·.1))
      (hfate : Turns s t i (.dropped .closing))
      (hchannel : t.connections = s.connections.withdraw i) (hclosed : t.isClosed = true) :
      Goes s t (.event e)
  /-- It is delivered. -/
  | delivered {i : Nat} {p : Passed ρ} (hfate : Turns s t i .delivered)
      (hchannel : s.connections.take? = some ((i, p), t.connections)) :
      Goes s t (.accepted (.ok p))

/-- What a step does with the connections. -/
def Steps (s t : Inspector σ ρ) (a : Act (Event ε ρ) (Passed ρ)) : Prop :=
  Keeps s t a ∧ Goes s t a

/-- A step of which the connections see nothing. -/
theorem idle_of_eq {s t : Inspector σ ρ} {a : Act (Event ε ρ) (Passed ρ)}
    (htaken : t.taken = s.taken) (hchannel : t.connections = s.connections)
    (hpolicy : t.policy = s.policy) (hpeek : t.peek = s.peek)
    (hclosed : s.isClosed = true → t.isClosed = true)
    (hyield : yield? a = none) (hresult : a.result?.bind Listen.connection? = none) :
    Steps s t a := by
  refine ⟨⟨hpolicy, hpeek, hclosed, ?_⟩, .idle ?_ hchannel hresult⟩
  · rw [htaken, hyield, Option.toList_none, List.append_nil]
  · intro i
    rw [fate?, fate?, htaken]

/-- A fate that changes leaves the connections as they are. -/
theorem taken_setFate (s : Inspector σ ρ) (i : Nat) (f : Fate ρ)
    {a : Act (Event ε ρ) (Passed ρ)} (hyield : yield? a = none) :
    (s.setFate i f).taken.map (·.connection) =
      s.taken.map (·.connection) ++ (yield? a).toList := by
  rw [hyield, map_connection_setFate, Option.toList_none, List.append_nil]

/-- The task of a connection goes on by itself. -/
theorem alone_of_setFate {s : Inspector σ ρ} {e : Event ε ρ} {i : Nat} {f g : Fate ρ}
    (hf : s.fate? i = some f) (hbefore : f.IsApart) (hafter : g.IsApart)
    (hdecision : ∀ c d, s.connection? i = some c → g.decision? = some d →
      ownDecision s.policy s.peek c = some d ∨ f.decision? = some d)
    (hclosing : g = .dropped .closing → s.isClosed = true)
    (hyield : yield? (.event e : Act (Event ε ρ) (Passed ρ)) = none) :
    Steps s (s.setFate i g) (.event e) := by
  have hfate : Turns s (s.setFate i g) i g := fun j => fate?_setFate hf j g
  refine ⟨⟨rfl, rfl, id, taken_setFate s i g hyield⟩,
    .alone i g ?_ hafter hfate rfl ?_ hclosing⟩
  · intro f' hf'
    rw [hf] at hf'
    cases hf'
    exact hbefore
  · intro c d hc hd
    rw [connection?_setFate] at hc
    rcases hdecision c d hc hd with h | h
    · exact .inl h
    · exact .inr ⟨f, hf, h⟩

/-- What the pump gets is looked at later. -/
theorem steps_of_pumped (s : Inspector σ ρ) (u : σ) (r : Accepted (Tagged (Connection ρ))) :
    Steps s ({ s with inner := u }.pumped r)
      (.event (.yielded r) : Act (Event ε ρ) (Passed ρ)) := by
  unfold pumped
  split
  · next c =>
    refine ⟨⟨rfl, rfl, id, List.map_append⟩,
      .alone s.taken.length .peeking ?_ ⟨nofun, nofun⟩ ?_ rfl ?_ nofun⟩
    · intro g hg
      simp [fate?] at hg
    · intro j
      by_cases hj : j = s.taken.length
      · simp [fate?, hj]
      · rcases Nat.lt_or_gt_of_ne hj with hlt | hgt
        · simp [fate?, hj, List.getElem?_append_left hlt]
        · simp [fate?, hj, List.getElem?_append_right (Nat.le_of_lt hgt),
            List.getElem?_eq_none (Nat.le_of_lt hgt)]
          omega
    · intro _ d _ hd
      cases hd
  · exact idle_of_eq rfl rfl rfl rfl id rfl rfl
  · exact idle_of_eq rfl rfl rfl rfl id rfl rfl

/-- A connection that has been looked at. -/
theorem steps_of_judged {s t : Inspector σ ρ} {i : Nat} {x : Inspected ρ}
    (hx : s.taken[i]? = some x) (hpeeking : x.fate = .peeking)
    (h : s.judged i x.connection = some t) :
    Steps s t (.event (.peeked i) : Act (Event ε ρ) (Passed ρ)) := by
  have hfate : s.fate? i = some .peeking := by simp [fate?, hx, hpeeking]
  have hconnection : s.connection? i = some x.connection := by simp [connection?, hx]
  -- A fate that comes of the judgement comes of the decision.
  have hend : ∀ f, (judge s.policy s.peek x.connection).fate? = some f → f.IsApart →
      f ≠ .dropped .closing →
      Steps s (s.setFate i f) (.event (.peeked i) : Act (Event ε ρ) (Passed ρ)) := by
    intro f hf hapart hopen
    refine alone_of_setFate hfate ⟨nofun, nofun⟩ hapart ?_ (fun h => absurd h hopen) rfl
    intro c d hc hd
    obtain rfl : x.connection = c := Option.some.inj (hconnection.symm.trans hc)
    rw [← decision_judge, hf]
    exact .inl hd
  unfold judged at h
  split at h
  · cases h
  · next error hjudge =>
    cases h
    exact hend _ (by rw [hjudge]; rfl) ⟨nofun, nofun⟩ nofun
  · next hjudge =>
    cases h
    exact hend _ (by rw [hjudge]; rfl) ⟨nofun, nofun⟩ nofun
  · next address stream hjudge =>
    cases h
    exact hend _ (by rw [hjudge]; rfl) ⟨nofun, nofun⟩ nofun
  · next p hjudge =>
    cases h
    exact ⟨⟨rfl, rfl, id, taken_setFate s i .waiting rfl⟩, .passed hfate hconnection
      (passes_of_judge hjudge) (fun j => fate?_setFate hfate j .waiting) rfl⟩

section

variable [Listener σ ε (Tagged (Connection ρ))] [DecidableEq ρ]

/-- The task of a connection stops at the close. -/
theorem steps_of_stopped {s t : Inspector σ ρ} {i : Nat} (h : step? s (.stopped i) = some t) :
    Steps s t (.event (.stopped i) : Act (Event ε ρ) (Passed ρ)) := by
  have hend : ∀ f : Fate ρ, s.fate? i = some f → f.IsApart →
      (if s.isClosed then some (s.setFate i (.dropped .closing)) else none) = some t →
      Steps s t (.event (.stopped i) : Act (Event ε ρ) (Passed ρ)) := by
    intro f hf hapart h
    split at h
    · next hclosed =>
      cases h
      exact alone_of_setFate hf hapart ⟨nofun, nofun⟩ nofun (fun _ => hclosed) rfl
    · cases h
  simp only [step?] at h
  split at h
  · next hf => exact hend _ hf ⟨nofun, nofun⟩ h
  · next hf => exact hend _ hf ⟨nofun, nofun⟩ h
  · next hf => exact hend _ hf ⟨nofun, nofun⟩ h
  · next hf =>
    split at h
    · next hany =>
      obtain ⟨u, hu, rfl⟩ := Option.map_eq_some_iff.mp h
      split at hu
      · next hclosed =>
        cases hu
        have hmem : i ∈ s.connections.waiting.map (·.1) := by
          obtain ⟨w, hw, hi⟩ := List.any_eq_true.mp hany
          exact List.mem_map.mpr ⟨w, hw, by simpa using hi⟩
        exact ⟨⟨rfl, rfl, id, taken_setFate s i _ rfl⟩,
          .withdrawn hmem (fun j => fate?_setFate hf j (.dropped .closing)) rfl hclosed⟩
      · cases hu
    · cases h
  · cases h

omit [Listener σ ε (Tagged (Connection ρ))] [DecidableEq ρ] in
/-- An accept delivers one connection or none. -/
theorem steps_of_answered {s t : Inspector σ ρ} {r : Accepted (Passed ρ)} (h : (r, t) ∈ answers s)
    (hwaiting : ∀ e ∈ s.connections.toList, s.fate? e.1 = some .waiting) :
    Steps s t (.accepted r : Act (Event ε ρ) (Passed ρ)) := by
  simp only [answers, List.mem_append, Option.mem_toList, Option.map_eq_some_iff,
    Prod.mk.injEq] at h
  rcases h with (h | ⟨⟨⟨i, p⟩, c⟩, hc, rfl, rfl⟩) | ⟨⟨e, c⟩, hc, rfl, rfl⟩
  · split at h
    · simp only [List.mem_singleton, Prod.mk.injEq] at h
      obtain ⟨rfl, rfl⟩ := h
      exact idle_of_eq rfl rfl rfl rfl id rfl rfl
    · cases h
  · have hf : s.fate? i = some .waiting := by
      refine hwaiting (i, p) ?_
      rw [Channel.toList_take hc]
      exact List.mem_cons_self ..
    exact ⟨⟨rfl, rfl, id, taken_setFate s i _ rfl⟩,
      .delivered (fun j => fate?_setFate hf j .delivered) hc⟩
  · exact idle_of_eq rfl rfl rfl rfl id rfl rfl

/-- Each event moves one connection at most. -/
theorem steps_of_step? {s t : Inspector σ ρ} {e : Event ε ρ} (h : step? s e = some t) :
    Steps s t (.event e) := by
  cases e with
  | ofInner e =>
    obtain ⟨u, -, rfl⟩ := Option.map_eq_some_iff.mp h
    exact idle_of_eq rfl rfl rfl rfl id rfl rfl
  | yielded r =>
    simp only [step?] at h
    split at h
    · cases h
    · obtain ⟨u, -, hu⟩ := Option.bind_eq_some_iff.mp h
      cases hu
      exact steps_of_pumped s u r
  | errorAdmitted =>
    obtain ⟨⟨_, c⟩, -, hc⟩ := Option.bind_eq_some_iff.mp h
    cases hc
    exact idle_of_eq rfl rfl rfl rfl id rfl rfl
  | pumpStopped =>
    simp only [step?] at h
    split at h
    · cases h
      exact idle_of_eq rfl rfl rfl rfl id rfl rfl
    · cases h
  | peeked i =>
    obtain ⟨x, hx, h⟩ := Option.bind_eq_some_iff.mp h
    split at h
    · next hpeeking => exact steps_of_judged hx hpeeking h
    · cases h
  | timedOut i =>
    simp only [step?] at h
    split at h
    · next hfate =>
      cases h
      exact alone_of_setFate hfate ⟨nofun, nofun⟩ ⟨nofun, nofun⟩ nofun nofun rfl
    · cases h
  | connected i reached =>
    simp only [step?] at h
    split at h
    · next address stream hfate =>
      cases h
      -- Whether the backend is reached or not, it is the backend of the decision.
      cases reached
      · show Steps s (s.setFate i (.parted address)) _
        exact alone_of_setFate hfate ⟨nofun, nofun⟩ ⟨nofun, nofun⟩ (fun _ _ _ => .inr) nofun rfl
      · show Steps s (s.setFate i (.joined address)) _
        exact alone_of_setFate hfate ⟨nofun, nofun⟩ ⟨nofun, nofun⟩ (fun _ _ _ => .inr) nofun rfl
    · cases h
  | parted i =>
    simp only [step?] at h
    split at h
    · next address hfate =>
      cases h
      exact alone_of_setFate hfate ⟨nofun, nofun⟩ ⟨nofun, nofun⟩ (fun _ _ _ => .inr) nofun rfl
    · cases h
  | admitted =>
    obtain ⟨⟨i, c⟩, hc, ht⟩ := Option.bind_eq_some_iff.mp h
    cases ht
    exact ⟨⟨rfl, rfl, id, (List.append_nil _).symm⟩, .admitted (fun _ => rfl) hc⟩
  | stopped i => exact steps_of_stopped h
  | innerClosed =>
    simp only [step?] at h
    split at h
    · cases h
      exact idle_of_eq rfl rfl rfl rfl (fun _ => rfl) rfl rfl
    · obtain ⟨r, -, rfl⟩ := Option.map_eq_some_iff.mp h
      exact idle_of_eq rfl rfl rfl rfl (fun _ => rfl) rfl rfl
    · cases h

/-- **Each step moves one connection at most**, if those in the channel are waiting. -/
theorem steps_of_perform? {s t : Inspector σ ρ} {a : Act (Event ε ρ) (Passed ρ)}
    (h : perform? s a = some t)
    (hwaiting : ∀ e ∈ s.connections.toList, s.fate? e.1 = some .waiting) :
    Steps s t a := by
  cases a with
  | event e => exact steps_of_step? h
  | accepted r => exact steps_of_answered (mem_answers_of_answered? h) hwaiting
  | abandoned =>
    cases h
    exact idle_of_eq rfl rfl rfl rfl id rfl rfl
  | closeCalled =>
    simp only [perform?, Listener.close?, close?] at h
    split at h
    · cases h
    · split at h
      · cases h
        exact idle_of_eq rfl rfl rfl rfl (fun _ => rfl) rfl rfl
      · cases h
        exact idle_of_eq rfl rfl rfl rfl (fun _ => rfl) rfl rfl
  | closeRefused =>
    obtain rfl := eq_of_closeRefused h
    exact idle_of_eq rfl rfl rfl rfl id rfl rfl
  | closeReturned r =>
    obtain rfl := eq_of_closeReturned h
    exact idle_of_eq rfl rfl rfl rfl id rfl rfl

end

end Inspector

end Gatehouse.Inspect
