import Gatehouse.Listen.Reconnecting
import Gatehouse.Listen.Source
import Gatehouse.Proofs.Listen.Runs

/-!
# What sources do

A source hands on what arrives, and a reconnecting listener what its sessions yield, each in order
and without loss as long as nobody closes it.  From the call of close on it is closed.

    Source.closed_of_perform?, Reconnecting.closed_of_perform? : closed from the call on
    Source.incoming_conserved        : a source loses nothing that arrives
    Reconnecting.sessionYields       : what the sessions yield, session by session
    Reconnecting.yields_conserved    : a reconnecting listener loses nothing that they yield
-/

namespace Gatehouse.Listen

variable {κ : Type}

/-! ## Sources -/

namespace Source

def arrival? : Act (Event κ) κ → Option (Accepted κ)
  | .event (.arrived r) => some r
  | _ => none

variable [DecidableEq κ]

theorem perform?_open {s t : Source κ} {a : Act (Event κ) κ} (hs : s.closed = false)
    (ha : a ≠ .closeCalled) (h : perform? s a = some t) :
    t.closed = false ∧
      s.incoming ++ (arrival? a).toList = a.result?.toList ++ t.incoming := by
  cases a with
  | event e =>
    cases h
    exact ⟨hs, rfl⟩
  | accepted r =>
    have hmem := mem_answers_of_answered? h
    simp only [Listener.answers, answers, hs] at hmem
    cases hin : s.incoming with
    | nil => simp [hin] at hmem
    | cons r' rest =>
      simp only [hin, Bool.false_eq_true, if_false, List.nil_append, List.mem_singleton,
        Prod.mk.injEq] at hmem
      obtain ⟨rfl, rfl⟩ := hmem
      exact ⟨rfl, by simp [arrival?, Act.result?]⟩
  | abandoned =>
    cases h
    exact ⟨hs, by simp [arrival?, Act.result?]⟩
  | closeCalled => contradiction
  | closeRefused =>
    obtain rfl := eq_of_closeRefused h
    exact ⟨hs, by simp [arrival?, Act.result?]⟩
  | closeReturned r =>
    obtain rfl := eq_of_closeReturned h
    exact ⟨hs, by simp [arrival?, Act.result?]⟩

omit [DecidableEq κ] in
theorem closed_of_answers {s t : Source κ} {r : Accepted κ} (h : (r, t) ∈ s.answers) :
    t.closed = s.closed := by
  unfold answers at h
  rcases List.mem_append.mp h with h | h
  · split at h
    · cases List.mem_singleton.mp h
      rfl
    · cases h
  · split at h
    · cases h
    · cases List.mem_singleton.mp h
      rfl

omit [DecidableEq κ] in
theorem closed_of_close? {s t : Source κ} (h : s.close? = some t) : t.closed = true := by
  unfold close? at h
  split at h
  · split at h
    · cases h
    · cases h
      rfl
  · cases h
    rfl

/-- A source is closed from the call on. -/
theorem closed_of_perform? {s t : Source κ} {a : Act (Event κ) κ} (h : perform? s a = some t) :
    t.closed = true ↔ s.closed = true ∨ a = .closeCalled := by
  cases a with
  | event e =>
    cases h
    simp
  | accepted r => simp [closed_of_answers (mem_answers_of_answered? h)]
  | abandoned =>
    cases h
    simp
  | closeCalled => simp [closed_of_close? h]
  | closeRefused => simp [eq_of_closeRefused h]
  | closeReturned r => simp [eq_of_closeReturned h]

/-- **What arrives is accepted in the order in which it came**, or has still to be. -/
theorem incoming_conserved {s t : Source κ} {acts : List (Act (Event κ) κ)}
    (hs : s.closed = false) (hacts : .closeCalled ∉ acts) (h : run? s acts = some t) :
    s.incoming ++ acts.filterMap arrival? = results acts ++ t.incoming := by
  rw [← observed_of_acts arrival? h]
  refine run?_conserves (fun s => s.closed = false) (· ≠ .closeCalled) Source.incoming
    (fun _ => arrival?) Act.result? ?_ hs (fun a ha he => hacts (he ▸ ha)) h
  intro s a t hs ha h
  exact perform?_open hs ha h

end Source

/-! ## Reconnecting listeners -/

namespace Reconnecting

def yield? (s : Reconnecting κ) : Act (Event κ) κ → Option κ
  | .event .yielded =>
    match s.phase with
    | .connected session => session.incoming.head?.bind connection?
    | _ => none
  | _ => none

/-- The connection that the task of the listener holds. -/
def inTask? (s : Reconnecting κ) : Option κ :=
  match s.phase with
  | .delivering _ c => some c
  | _ => none

/-- What has been yielded and not yet accepted. -/
def held (s : Reconnecting κ) : List κ := s.buffer.toList ++ s.inTask?.toList

/-- Puts what the open session has yielded before what it yields later. -/
def yieldBefore (c : Option κ) : List (List κ) → List (List κ)
  | [] => [c.toList]
  | now :: later => (c.toList ++ now) :: later

theorem flatten_yieldBefore (c : Option κ) (yields : List (List κ)) :
    (yieldBefore c yields).flatten = c.toList ++ yields.flatten := by
  cases yields <;> simp [yieldBefore]

section

variable [DecidableEq κ]

/-- What the sessions yield during a run, those that are opened later after the one that is open
now. -/
def sessionYields : Reconnecting κ → List (Act (Event κ) κ) → List (List κ)
  | _, [] => [[]]
  | s, a :: acts =>
    match perform? s a with
    | none => [[]]
    | some t =>
      match a with
      | .event (.dialed _) => [] :: sessionYields t acts
      | _ => yieldBefore (s.yield? a) (sessionYields t acts)

/-- Session by session or step by step, the same connections are yielded. -/
theorem flatten_sessionYields (s : Reconnecting κ) (acts : List (Act (Event κ) κ)) :
    (sessionYields s acts).flatten = observed yield? s acts := by
  induction acts generalizing s with
  | nil => rfl
  | cons a acts ih =>
    unfold sessionYields observed
    cases perform? s a with
    | none => rfl
    | some t =>
      dsimp only
      split
      · rw [List.flatten_cons, ih]
        rfl
      · rw [flatten_yieldBefore, ih]

omit [DecidableEq κ] in
theorem step?_open {s t : Reconnecting κ} {e : Event κ} (h : step? s e = some t) :
    t.closed = s.closed ∧
      (s.closed = false → s.held ++ (s.yield? (.event e)).toList = t.held) := by
  unfold step? at h
  split at h
  · next hphase => cases h; simp [held, inTask?, yield?, hphase]
  · next hphase => cases h; simp [held, inTask?, yield?, hphase]
  · next hphase => cases h; simp [held, inTask?, yield?, hphase]
  · next hphase => cases h; simp [held, inTask?, yield?, hphase]
  · next session hphase =>
    split at h
    · cases h
    · next c rest hin => cases h; simp [held, inTask?, yield?, hphase, hin, connection?]
    · next error rest hin => cases h; simp [held, inTask?, yield?, hphase, hin, connection?]
  · next session c hphase =>
    split at h
    · cases h
    · next hbuffer => cases h; simp [held, inTask?, yield?, hphase, hbuffer]
  · next hphase => cases h; simp [held, inTask?, yield?, hphase]
  · cases h
  · split at h
    · next hclosed => cases h; simp [hclosed]
    · cases h
  · cases h

omit [DecidableEq κ] in
/-- An accept takes what is in the buffer, or tells that there will be no more. -/
theorem taken_or_told {s t : Reconnecting κ} {r : Accepted κ} (h : (r, t) ∈ s.answers) :
    (∃ c, r = .ok c ∧ s.buffer = some c ∧ t = { s with buffer := none }) ∨
      r = .error .closed ∧ t = s := by
  unfold answers at h
  rcases List.mem_append.mp h with h | h
  · split at h
    · cases List.mem_singleton.mp h
      exact .inr ⟨rfl, rfl⟩
    · cases h
  · split at h
    · next c hbuffer =>
      cases List.mem_singleton.mp h
      exact .inl ⟨c, rfl, hbuffer, rfl⟩
    · split at h
      · cases List.mem_singleton.mp h
        exact .inr ⟨rfl, rfl⟩
      · cases h

omit [DecidableEq κ] in
/-- An accept changes nothing but the buffer. -/
theorem eq_of_answers {s t : Reconnecting κ} {r : Accepted κ} (h : (r, t) ∈ s.answers) :
    t.closed = s.closed ∧ t.phase = s.phase := by
  rcases taken_or_told h with ⟨c, -, -, rfl⟩ | ⟨-, rfl⟩ <;> exact ⟨rfl, rfl⟩

omit [DecidableEq κ] in
theorem eq_of_close? {s t : Reconnecting κ} (h : s.close? = some t) :
    t = { s with closed := true } := by
  unfold close? at h
  split at h
  · cases h
  · exact (Option.some.inj h).symm

/-- A reconnecting listener is closed from the call on. -/
theorem closed_of_perform? {s t : Reconnecting κ} {a : Act (Event κ) κ}
    (h : perform? s a = some t) : t.closed = true ↔ s.closed = true ∨ a = .closeCalled := by
  cases a with
  | event e => simp [(step?_open h).1]
  | accepted r => simp [(eq_of_answers (mem_answers_of_answered? h)).1]
  | abandoned =>
    cases h
    simp
  | closeCalled => simp [eq_of_close? h]
  | closeRefused => simp [eq_of_closeRefused h]
  | closeReturned r => simp [eq_of_closeReturned h]

omit [DecidableEq κ] in
theorem hasEnded_eq_true {s : Reconnecting κ} : s.hasEnded = true ↔ s.phase = .ended := by
  unfold hasEnded
  cases s.phase <;> simp

/-- A task that has ended does nothing more. -/
theorem hasEnded_of_perform? {s t : Reconnecting κ} {a : Act (Event κ) κ}
    (h : perform? s a = some t) (hs : s.hasEnded = true) : t.hasEnded = true := by
  rw [hasEnded_eq_true] at hs ⊢
  cases a with
  | event e => cases e <;> simp [perform?, Listener.step?, step?, hs] at h
  | accepted r => rw [(eq_of_answers (mem_answers_of_answered? h)).2, hs]
  | abandoned =>
    cases h
    exact hs
  | closeCalled =>
    rw [eq_of_close? h]
    exact hs
  | closeRefused => rw [← eq_of_closeRefused h, hs]
  | closeReturned r => rw [← eq_of_closeReturned h, hs]

theorem perform?_open {s t : Reconnecting κ} {a : Act (Event κ) κ} (hs : s.closed = false)
    (ha : a ≠ .closeCalled) (h : perform? s a = some t) :
    t.closed = false ∧
      s.held ++ (s.yield? a).toList = (a.result?.bind connection?).toList ++ t.held ∧
      a.result?.bind error? = none := by
  cases a with
  | event e =>
    obtain ⟨hclosed, hheld⟩ := step?_open h
    exact ⟨hclosed.trans hs, hheld hs, rfl⟩
  | accepted r =>
    have hmem := mem_answers_of_answered? h
    simp only [Listener.answers, answers, hs, Bool.false_eq_true, if_false, List.nil_append] at hmem
    cases hb : s.buffer with
    | some c =>
      simp only [hb, List.mem_singleton, Prod.mk.injEq] at hmem
      obtain ⟨rfl, rfl⟩ := hmem
      exact ⟨rfl, by simp [held, yield?, Act.result?, connection?, hb, inTask?], rfl⟩
    | none =>
      simp only [hb] at hmem
      split at hmem
      · simp only [List.mem_singleton, Prod.mk.injEq] at hmem
        obtain ⟨rfl, rfl⟩ := hmem
        exact ⟨hs, by simp [yield?, Act.result?, connection?], rfl⟩
      · cases hmem
  | abandoned =>
    cases h
    exact ⟨hs, by simp [yield?, Act.result?], rfl⟩
  | closeCalled => contradiction
  | closeRefused =>
    obtain rfl := eq_of_closeRefused h
    exact ⟨hs, by simp [yield?, Act.result?], rfl⟩
  | closeReturned r =>
    obtain rfl := eq_of_closeReturned h
    exact ⟨hs, by simp [yield?, Act.result?], rfl⟩

/-- **What the sessions yield is accepted in the order in which they yielded it**, or has still to
be, whatever becomes of the sessions. -/
theorem yields_conserved {s t : Reconnecting κ} {acts : List (Act (Event κ) κ)}
    (hs : s.closed = false) (hacts : .closeCalled ∉ acts) (h : run? s acts = some t) :
    s.held ++ (sessionYields s acts).flatten = delivered acts ++ t.held := by
  rw [flatten_sessionYields, delivered, results, List.filterMap_filterMap]
  refine run?_conserves (fun s => s.closed = false) (· ≠ .closeCalled) held yield? _ ?_ hs
    (fun a ha he => hacts (he ▸ ha)) h
  intro s a t hs ha h
  obtain ⟨hclosed, hheld, -⟩ := perform?_open hs ha h
  exact ⟨hclosed, hheld⟩

/-- No errors come out of a reconnecting listener that is open. -/
theorem failures_eq_nil {s t : Reconnecting κ} {acts : List (Act (Event κ) κ)}
    (hs : s.closed = false) (hacts : .closeCalled ∉ acts) (h : run? s acts = some t) :
    failures acts = [] := by
  have hconserved := run?_conserves (fun s => s.closed = false) (· ≠ .closeCalled)
    (fun _ : Reconnecting κ => ([] : List ListenerError)) (fun _ _ => none)
    (fun a => a.result?.bind error?) ?_ hs (fun a ha he => hacts (he ▸ ha)) h
  · rw [failures, results, List.filterMap_filterMap]
    rw [observed_of_acts (fun _ => none) h, List.filterMap_eq_nil_iff.mpr fun _ _ => rfl]
      at hconserved
    simpa only [List.append_nil] using hconserved.symm
  · intro s a t hs ha h
    obtain ⟨hclosed, -, herror⟩ := perform?_open hs ha h
    exact ⟨hclosed, by simp [herror]⟩

end

end Reconnecting

end Gatehouse.Listen
